import MyStockIQ.SharedStore.Interleaving
import MyStockIQ.Customdate
import MyStockIQ.MarketHours
import MyStockIQ.Schema
import MyStockIQ.Prediction
import MyStockIQ.Controllers
import MyStockIQ.Jobs
import MyStockIQ.Effects
import MyStockIQ.GraphTimes
import MyStockIQ.Verification
import MyStockIQ.Endings
import MyStockIQ.LifeCycle
import MyStockIQ.OneActive
import MyStockIQ.Races
import MyStockIQ.Creation
import MyStockIQ.Feed
import MyStockIQ.SignUp
import MyStockIQ.Saving
import MyStockIQ.Closing
import MyStockIQ.Counter
import MyStockIQ.Pass
import MyStockIQ.BrowserClock
import MyStockIQ.MarketClocks
import MyStockIQ.Sql.Lexer
import MyStockIQ.Sql.Reading
import MyStockIQ.Scraper
import MyStockIQ.Statements
import MyStockIQ.SharedStore.History
import MyStockIQ.SharedStore.Part
import MyStockIQ.Sessions
import MyStockIQ.Admin
import MyStockIQ.Posts
import MyStockIQ.Posting
import MyStockIQ.Following
import MyStockIQ.SharedStore.Twin
import MyStockIQ.SharedStore.Issued
import MyStockIQ.Sweep
import MyStockIQ.PriceFeeds
import MyStockIQ.Imports
import MyStockIQ.DailyPrices
import MyStockIQ.DailyRows
import MyStockIQ.OneDaily
import MyStockIQ.News
import MyStockIQ.SweepReach
import MyStockIQ.Tending
import MyStockIQ.Routed
import MyStockIQ.Session
import MyStockIQ.DailyChart
import MyStockIQ.IntradayFeed
import MyStockIQ.Scan.RunningMax
import MyStockIQ.LatestPrice
import MyStockIQ.DailyChange
import MyStockIQ.IntradayImport
import MyStockIQ.Viewing
import MyStockIQ.LoggingIn
import MyStockIQ.Inviters
import MyStockIQ.Scoring
import MyStockIQ.PriceInput
import MyStockIQ.Mentions
import MyStockIQ.FanOut
import MyStockIQ.Issued
import MyStockIQ.Delivery
import MyStockIQ.Cancelling
import MyStockIQ.SharedStore.KeyedRows
import MyStockIQ.Likes
import MyStockIQ.SharedStore.Writes
import MyStockIQ.SweepScores
import MyStockIQ.Decay
import MyStockIQ.JavaScript.Arrays
import MyStockIQ.Chart
import MyStockIQ.Frames
import MyStockIQ.FrameRuns
import MyStockIQ.LeftEdge
import MyStockIQ.Launch
import MyStockIQ.BestRange
import MyStockIQ.Consumed
import MyStockIQ.Scan.FirstOfEach
import MyStockIQ.PredictionLine
import MyStockIQ.Pickers
import MyStockIQ.OpenSlots
import MyStockIQ.Offered
import MyStockIQ.PickersRight
import MyStockIQ.PickersWhen
import MyStockIQ.Scan.NextRows
import MyStockIQ.FutureTimes
import MyStockIQ.Sql.Ordered
import MyStockIQ.Graph
import MyStockIQ.PriceDates
import MyStockIQ.GraphArrays
import MyStockIQ.FrameLimits
import MyStockIQ.StockPage
import MyStockIQ.Sql.Update
import MyStockIQ.NightlyUpdates
import MyStockIQ.Boards
import MyStockIQ.CrowdLine
import MyStockIQ.PredictionPage
import MyStockIQ.References
