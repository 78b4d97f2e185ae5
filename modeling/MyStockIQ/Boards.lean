import MyStockIQ.Feed
import MyStockIQ.Posting
import MyStockIQ.Sql.Ordered
import MyStockIQ.Sweep
import Mathlib.Logic.Relation
/-!
# Scrolling through a board (`app/views/*/show.js.erb`, `pagination.js.coffee`)

The boards of a stock, of a user and of the feed show ten streams, and get ten more each
time the reader scrolls to the end. A page is a query of its own, so where streams have the
same score it may order them another way; and the boards of a stock and of the feed take the
last item off again after each page but the last. What a reader who has scrolled to the end
then has seen is `boards_complete_iff`.
-/

open Sql

namespace MyStockIQ.Boards

/-! ## The queries -/

/-- `by_popularity_score`, the join: a stream has a row for each popularity of its streamable, of which each is known
by its place. -/
def byPopularityScore (db : Db) (streams : List Stream) : List (Stream × (Popularity × Nat)) :=
  streams.flatMap fun stream =>
    (db.popularities.zipIdx.filter (·.1.popularable = stream.streamable)).map fun popularity => (stream, popularity)

/-- `popularities.score DESC` -/
def Higher (a b : Stream × (Popularity × Nat)) : Prop := b.2.1.score ≤ a.2.1.score

instance : DecidableRel Higher := fun a b => inferInstanceAs (Decidable (b.2.1.score ≤ a.2.1.score))

/-- `created_at desc` -/
def Newer (created_at : Stream → Time) (a b : Stream) : Prop := created_at b ≤ created_at a

instance (created_at : Stream → Time) : DecidableRel (Newer created_at) :=
  fun a b => inferInstanceAs (Decidable (created_at b ≤ created_at a))

theorem higher_total (a b : Stream × (Popularity × Nat)) : Higher a b ∨ Higher b a := le_total _ _

theorem higher_trans (a b c : Stream × (Popularity × Nat)) (hab : Higher a b) (hbc : Higher b c) : Higher a c :=
  le_trans hbc hab

theorem newer_total (created_at : Stream → Time) (a b : Stream) : Newer created_at a b ∨ Newer created_at b a :=
  le_total _ _

theorem newer_trans (created_at : Stream → Time) (a b c : Stream) (hab : Newer created_at a b)
    (hbc : Newer created_at b c) : Newer created_at a c := le_trans hbc hab

/-- `streams` of a stock or a user. -/
def streamsOf (db : Db) (target : Ref) : List Stream := db.streams.filter (·.targetable = target)

/-! ## The server -/

/-- Whether `streams/_stream_main` draws a stream. The partials of the three classes draw the image of the user. -/
def draws (board : Posts.Board) (stream : Stream) : Except Error Bool :=
  let imageOf (user_id : Int) : Except Error Bool :=
    if board.users.any fun user => user.id = user_id then .ok true else .error (.noMethodError "image")
  match stream.streamable.type with
  | .comment =>
    match board.comments.find? (·.id = stream.streamable.id) with
    | none => .ok false
    | some comment => imageOf comment.user_id
  | .prediction =>
    match board.prediction stream.streamable.id with
    | none => .ok false
    | some prediction => imageOf prediction.user_id
  | .predictionend =>
    match board.predictionend stream.streamable.id with
    | none => .ok false
    | some predictionend =>
      match board.prediction predictionend.prediction_id with
      | none => .error (.noMethodError "user")
      | some prediction => imageOf prediction.user_id
  | _ => .ok false

section
variable {α : Type} {le : α → α → Prop}

/-- `streams/_stream_main`: the rows it draws. -/
def streamMain (draw : α → Except Error Bool) : List α → Except Error (List α)
  | [] => .ok []
  | row :: rest => do
    let drawn ← draw row
    let others ← streamMain draw rest
    return if drawn then row :: others else others

/-- `total_pages` of `will_paginate` -/
def totalPages (total_entries : Nat) : Nat := if total_entries = 0 then 1 else (total_entries + 9) / 10

structure Served (α : Type) where
  items : List α
  next_page : Option Nat
  deriving DecidableEq

/-- The page of a board. Its first page has the number 1. -/
def serve (draw : α → Except Error Bool) (order : OrderBy le) (rows : List α) (page : Nat) : Except Error (Served α) := do
  let items ← streamMain draw (order.page rows 10 (page - 1))
  return ⟨items, if page < totalPages rows.length then some (page + 1) else none⟩

/-! ## The browser -/

/-- What is in `.pagination`: links, of which that to the next page matters, or the image that it is loading. -/
inductive Pagination where
  | next_page (page : Nat)
  | loading
  | removed
  deriving DecidableEq

structure Window (α : Type) where
  stream : List α
  pagination : Pagination
  /-- The pages asked for and not answered. -/
  pending : List Nat
  /-- The pages asked for. -/
  asked : List Nat
  /-- The pages that have come, with that on which the board is opened. -/
  came : List Nat

def paginationOf : Option Nat → Pagination
  | some page => .next_page page
  | none => .removed

/-- The page as the browser opens it. -/
def Window.opened (served : Served α) : Window α := ⟨served.items, paginationOf served.next_page, [], [], [1]⟩

/-- The handler of `scroll`. -/
def Window.scroll (window : Window α) (scrollTop documentHeight windowHeight : Int) : Window α :=
  match window.pagination with
  | .next_page page =>
    if scrollTop > documentHeight - windowHeight - 60 then
      { window with pagination := .loading, pending := window.pending ++ [page], asked := window.asked ++ [page] }
    else window
  | _ => window

/-- `show.js.erb`. `removes` is whether it takes off the last item after a page that is not the last. -/
def Window.show (removes : Bool) (window : Window α) (served : Served α) : Window α :=
  let stream := window.stream ++ served.items
  match served.next_page with
  | some page => { window with stream := if removes then stream.dropLast else stream, pagination := .next_page page }
  | none => { window with stream := stream, pagination := .removed }

/-- The answer to a request. Nothing is run if the server raised. -/
def Window.receive (removes : Bool) (window : Window α) (page : Nat) (answer : Except Error (Served α)) : Window α :=
  let window := { window with pending := window.pending.erase page }
  match answer with
  | .ok served => { window.show removes served with came := window.came ++ [page] }
  | .error _ => window

/-- The reader scrolls, or a request is answered. The rows are among `possible` whenever the server looks. -/
inductive Step (removes : Bool) (draw : α → Except Error Bool) (le : α → α → Prop) (possible : List α → Prop) :
    Window α → Window α → Prop where
  | scroll (window : Window α) (scrollTop documentHeight windowHeight : Int) :
    Step removes draw le possible window (window.scroll scrollTop documentHeight windowHeight)
  | answer (window : Window α) (order : OrderBy le) (rows : List α) (page : Nat) (hrows : possible rows)
    (hpage : page ∈ window.pending) :
    Step removes draw le possible window (window.receive removes page (serve draw order rows page))

/-- The windows a reader can have. -/
def Reached (removes : Bool) (draw : α → Except Error Bool) (le : α → α → Prop) (possible : List α → Prop)
    (window : Window α) : Prop :=
  ∃ (order : OrderBy le) (rows : List α) (served : Served α), possible rows ∧ serve draw order rows 1 = .ok served ∧
    Relation.ReflTransGen (Step removes draw le possible) (Window.opened served) window

/-! ## What is asked for -/

/-- The pages asked for are the next ones in order, each after the one before it had come, and the last of them may
still be loading. -/
structure Orderly (window : Window α) : Prop where
  asked : window.asked = List.range' 2 window.asked.length
  next_page : ∀ page, window.pagination = .next_page page →
    window.pending = [] ∧ page = window.asked.length + 2 ∧ page - 1 ∈ window.came
  pending : window.pending = [] ∨ window.pagination = .loading ∧ window.pending = [window.asked.length + 1]
  after : ∀ page ∈ window.asked, page - 1 ∈ window.came

theorem next_page_of_serve {draw : α → Except Error Bool} {order : OrderBy le} {rows : List α} {page : Nat}
    {served : Served α} (h : serve draw order rows page = .ok served) :
    served.next_page = some (page + 1) ∨ served.next_page = none := by
  unfold serve at h
  obtain ⟨items, -, h⟩ := SharedStore.bind_eq_ok h
  cases h
  dsimp only
  split
  · exact .inl rfl
  · exact .inr rfl

theorem Orderly.opened {draw : α → Except Error Bool} {order : OrderBy le} {rows : List α} {served : Served α}
    (h : serve draw order rows 1 = .ok served) : Orderly (Window.opened served) := by
  refine ⟨rfl, ?_, .inl rfl, nofun⟩
  intro page hpage
  unfold Window.opened at hpage ⊢
  cases next_page_of_serve h with
  | inl hnext =>
    rw [hnext] at hpage
    cases hpage
    exact ⟨rfl, rfl, List.mem_singleton_self 1⟩
  | inr hnext =>
    rw [hnext] at hpage
    cases hpage

theorem Orderly.scroll {window : Window α} (h : Orderly window) (scrollTop documentHeight windowHeight : Int) :
    Orderly (window.scroll scrollTop documentHeight windowHeight) := by
  unfold Window.scroll
  cases hcase : window.pagination with
  | next_page page =>
    obtain ⟨hpending, rfl, hcame⟩ := h.next_page page hcase
    dsimp only
    split
    · refine ⟨?_, nofun, .inr ⟨rfl, ?_⟩, ?_⟩
      · dsimp only
        rw [List.length_append, List.length_singleton, List.range'_concat, ← h.asked]
        simp [Nat.add_comm]
      · simp [hpending]
      · intro page hpage
        rcases List.mem_append.1 hpage with hbefore | hlast
        · exact h.after page hbefore
        · rw [List.mem_singleton.1 hlast]
          exact hcame
    · exact h
  | loading => exact h
  | removed => exact h

/-- Only the page that is loading is answered. -/
theorem Orderly.loading {window : Window α} (h : Orderly window) {page : Nat} (hpage : page ∈ window.pending) :
    page = window.asked.length + 1 ∧ window.pagination = .loading ∧ window.pending.erase page = [] := by
  cases h.pending with
  | inl hpending =>
    rw [hpending] at hpage
    cases hpage
  | inr hloading =>
    obtain ⟨hloading, hpending⟩ := hloading
    rw [hpending] at hpage ⊢
    obtain rfl := List.mem_singleton.1 hpage
    exact ⟨rfl, hloading, by simp⟩

theorem Orderly.step {removes : Bool} {draw : α → Except Error Bool} {possible : List α → Prop}
    {window window' : Window α} (h : Orderly window) (hstep : Step removes draw le possible window window') :
    Orderly window' := by
  cases hstep with
  | scroll scrollTop documentHeight windowHeight => exact h.scroll scrollTop documentHeight windowHeight
  | answer order rows page hrows hpage =>
    obtain ⟨rfl, hloading, herase⟩ := h.loading hpage
    unfold Window.receive
    rw [herase]
    cases hserve : serve draw order rows (window.asked.length + 1) with
    | error e => exact ⟨h.asked, fun page hnext => absurd hnext (by simp [hloading]), .inl rfl, h.after⟩
    | ok served =>
      dsimp only
      have hafter : ∀ page ∈ window.asked, page - 1 ∈ window.came ++ [window.asked.length + 1] :=
        fun page hpage => List.mem_append_left _ (h.after page hpage)
      unfold Window.show
      cases next_page_of_serve hserve with
      | inl hnext =>
        rw [hnext]
        refine ⟨h.asked, ?_, .inl rfl, hafter⟩
        intro page hpage
        cases hpage
        exact ⟨rfl, rfl, List.mem_append_right _ (List.mem_singleton_self _)⟩
      | inr hnext =>
        rw [hnext]
        exact ⟨h.asked, nofun, .inl rfl, hafter⟩

theorem Reached.orderly {removes : Bool} {draw : α → Except Error Bool} {possible : List α → Prop} {window : Window α}
    (h : Reached removes draw le possible window) : Orderly window := by
  obtain ⟨order, rows, served, -, hserve, hsteps⟩ := h
  induction hsteps with
  | refl => exact Orderly.opened hserve
  | tail _ hstep ih => exact ih.step hstep

/-- However the reader scrolls and whatever the board has become when the server looks, each page is asked for at
most once, in order, with one request under way at most, and none before the one before it has come. -/
theorem pages_asked_once {removes : Bool} {draw : α → Except Error Bool} {possible : List α → Prop} {window : Window α}
    (h : Reached removes draw le possible window) :
    window.asked = List.range' 2 window.asked.length ∧
      (window.pending = [] ∨ window.pending = [window.asked.length + 1] ∧ window.pagination = .loading) ∧
      ∀ page ∈ window.asked, page - 1 ∈ window.came :=
  ⟨h.orderly.asked, h.orderly.pending.imp_right And.symm, h.orderly.after⟩

end

/-- Eleven comments on a stock, none of which has been swept. -/
def elevenComments : Posts.Board :=
  { Posts.emptyBoard with
    comments := (List.range 11).map fun id => ⟨id, 1, "Up"⟩
    streams := (List.range 11).map fun id => ⟨⟨.comment, id⟩, ⟨.stock, 1⟩⟩
    popularities := (List.range 11).map fun id => ⟨⟨.comment, id⟩, 0⟩ }

def elevenRows : List (Stream × (Popularity × Nat)) :=
  byPopularityScore elevenComments.toDb (streamsOf elevenComments.toDb ⟨.stock, 1⟩)

def firstTen : Served (Stream × (Popularity × Nat)) := ⟨elevenRows.take 10, some 2⟩

theorem serve_firstTen : serve (fun row => draws elevenComments row.1) (OrderBy.stable higher_total higher_trans)
    elevenRows 1 = .ok firstTen := by decide

/-- A reader of the eleven scrolls to the end, and further. -/
def scrolledTwice : Window (Stream × (Popularity × Nat)) :=
  ((Window.opened firstTen).scroll 700 1300 600).scroll 710 1300 600

theorem pages_asked_once_eleven : scrolledTwice.asked = List.range' 2 scrolledTwice.asked.length ∧
    (scrolledTwice.pending = [] ∨
      scrolledTwice.pending = [scrolledTwice.asked.length + 1] ∧ scrolledTwice.pagination = .loading) ∧
    ∀ page ∈ scrolledTwice.asked, page - 1 ∈ scrolledTwice.came := by
  have h : Reached true (fun row => draws elevenComments row.1) Higher (fun _ => True) scrolledTwice :=
    ⟨_, elevenRows, firstTen, trivial, serve_firstTen,
      (Relation.ReflTransGen.single (.scroll _ 700 1300 600)).tail (.scroll _ 710 1300 600)⟩
  exact pages_asked_once h

/-! ## What is shown -/

section
variable {α : Type} {le : α → α → Prop}

theorem streamMain_eq {draw : α → Except Error Bool} {shown : α → Bool} {rows : List α}
    (hdraw : ∀ row ∈ rows, draw row = .ok (shown row)) : streamMain draw rows = .ok (rows.filter shown) := by
  induction rows with
  | nil => rfl
  | cons row rows ih =>
    have hfirst := hdraw row List.mem_cons_self
    have hrest := ih fun row' hrow' => hdraw row' (List.mem_cons_of_mem _ hrow')
    unfold streamMain
    rw [hfirst, hrest, List.filter_cons]
    rfl

section
variable {draw : α → Except Error Bool} {shown : α → Bool} {rows : List α} {removes : Bool}

theorem serve_eq (hdraw : ∀ row ∈ rows, draw row = .ok (shown row)) (order : OrderBy le) (k : Nat) :
    serve draw order rows (k + 1) = .ok ⟨(order.page rows 10 k).filter shown,
      if k + 1 < totalPages rows.length then some (k + 2) else none⟩ := by
  have hpage : ∀ row ∈ order.page rows 10 k, draw row = .ok (shown row) := fun row hrow =>
    hdraw row (order.mem_reorder.1 (List.mem_of_mem_drop (List.mem_of_mem_take hrow)))
  unfold serve
  rw [Nat.add_sub_cancel, streamMain_eq hpage]
  rfl

variable (removes shown rows) in
/-- The items after so many pages, if there were always as many rows. -/
def gathered (orders : Nat → OrderBy le) : Nat → List α
  | 0 => []
  | k + 1 =>
    let stream := gathered orders k ++ ((orders k).page rows 10 k).filter shown
    if removes ∧ 0 < k ∧ k + 1 < totalPages rows.length then stream.dropLast else stream

theorem gathered_congr {orders orders' : Nat → OrderBy le} {k : Nat} (h : ∀ n < k, orders n = orders' n) :
    gathered shown rows removes orders k = gathered shown rows removes orders' k := by
  induction k with
  | zero => rfl
  | succ k ih =>
    unfold gathered
    rw [ih fun n hn => h n (Nat.lt_succ_of_lt hn), h k (Nat.lt_succ_self k)]

variable (shown rows removes) in
/-- A window of a board that does not change, between two pages. -/
structure Resting (orders : Nat → OrderBy le) (k : Nat) (window : Window α) : Prop where
  pos : 0 < k
  fits : k ≤ totalPages rows.length
  stream : window.stream = gathered shown rows removes orders k
  pagination : window.pagination = paginationOf (if k < totalPages rows.length then some (k + 1) else none)
  pending : window.pending = []

variable (shown rows removes) in
/-- One that waits for the next page. -/
structure Waiting (orders : Nat → OrderBy le) (k : Nat) (window : Window α) : Prop where
  pos : 0 < k
  more : k < totalPages rows.length
  stream : window.stream = gathered shown rows removes orders k
  pagination : window.pagination = .loading
  pending : window.pending = [k + 1]

theorem totalPages_pos (total_entries : Nat) : 0 < totalPages total_entries := by
  unfold totalPages
  split <;> omega

variable (hdraw : ∀ row ∈ rows, draw row = .ok (shown row))
include hdraw

theorem resting_opened {order : OrderBy le} {served : Served α} (hserve : serve draw order rows 1 = .ok served) :
    Resting shown rows removes (fun _ => order) 1 (Window.opened served) := by
  rw [serve_eq hdraw order 0] at hserve
  cases hserve
  refine ⟨Nat.one_pos, totalPages_pos _, ?_, rfl, rfl⟩
  simp [Window.opened, gathered]

omit hdraw in
theorem Resting.scroll {orders : Nat → OrderBy le} {k : Nat} {window : Window α}
    (h : Resting shown rows removes orders k window) (hmore : k < totalPages rows.length)
    {scrollTop documentHeight windowHeight : Int} (hend : scrollTop > documentHeight - windowHeight - 60) :
    Waiting shown rows removes orders k (window.scroll scrollTop documentHeight windowHeight) := by
  have hpagination := h.pagination
  rw [if_pos hmore] at hpagination
  have hscroll : window.scroll scrollTop documentHeight windowHeight =
      { window with pagination := .loading, pending := window.pending ++ [k + 1], asked := window.asked ++ [k + 1] } := by
    unfold Window.scroll
    rw [hpagination]
    exact if_pos hend
  rw [hscroll]
  exact ⟨h.pos, hmore, h.stream, rfl, by simp [h.pending]⟩

theorem Waiting.receive {orders : Nat → OrderBy le} {k : Nat} {window : Window α}
    (h : Waiting shown rows removes orders k window) (order : OrderBy le) :
    Resting shown rows removes (Function.update orders k order) (k + 1)
      (window.receive removes (k + 1) (serve draw order rows (k + 1))) := by
  have hsame : gathered shown rows removes orders k = gathered shown rows removes (Function.update orders k order) k :=
    gathered_congr fun n hn => (Function.update_of_ne (Nat.ne_of_lt hn) order orders).symm
  have hstream := h.stream
  rw [hsame] at hstream
  unfold Window.receive
  rw [serve_eq hdraw order k]
  dsimp only
  unfold Window.show
  by_cases hmore : k + 1 < totalPages rows.length
  · rw [if_pos hmore]
    refine ⟨Nat.succ_pos k, h.more, ?_, by rw [if_pos hmore]; rfl, by simp [h.pending]⟩
    unfold gathered
    rw [Function.update_self, ← hstream]
    by_cases hremoves : removes = true
    · simp [hremoves, h.pos, hmore]
    · simp [hremoves]
  · rw [if_neg hmore]
    refine ⟨Nat.succ_pos k, h.more, ?_, by rw [if_neg hmore]; rfl, by simp [h.pending]⟩
    unfold gathered
    rw [Function.update_self, ← hstream]
    simp [hmore]

theorem step_resting_or_waiting {orders : Nat → OrderBy le} {k : Nat} {window window' : Window α}
    (h : Resting shown rows removes orders k window ∨ Waiting shown rows removes orders k window)
    (hstep : Step removes draw le (· = rows) window window') :
    ∃ (orders : Nat → OrderBy le) (k : Nat),
      Resting shown rows removes orders k window' ∨ Waiting shown rows removes orders k window' := by
  cases hstep with
  | scroll scrollTop documentHeight windowHeight =>
    cases h with
    | inl hresting =>
      by_cases hmove : k < totalPages rows.length ∧ scrollTop > documentHeight - windowHeight - 60
      · exact ⟨orders, k, .inr (hresting.scroll hmove.1 hmove.2)⟩
      · have hstay : window.scroll scrollTop documentHeight windowHeight = window := by
          unfold Window.scroll
          rw [hresting.pagination]
          by_cases hmore : k < totalPages rows.length
          · rw [if_pos hmore]
            exact if_neg fun hend => hmove ⟨hmore, hend⟩
          · rw [if_neg hmore]
            rfl
        exact ⟨orders, k, .inl (hstay.symm ▸ hresting)⟩
    | inr hwaiting =>
      have hstay : window.scroll scrollTop documentHeight windowHeight = window := by
        unfold Window.scroll
        rw [hwaiting.pagination]
      exact ⟨orders, k, .inr (hstay.symm ▸ hwaiting)⟩
  | answer order rows' page hrows hpage =>
    subst hrows
    cases h with
    | inl hresting =>
      rw [hresting.pending] at hpage
      cases hpage
    | inr hwaiting =>
      rw [hwaiting.pending] at hpage
      obtain rfl := List.mem_singleton.1 hpage
      exact ⟨_, k + 1, .inl (hwaiting.receive hdraw order)⟩

/-- Every window of a board that does not change is one of the two. -/
theorem Reached.resting_or_waiting {window : Window α} (h : Reached removes draw le (· = rows) window) :
    ∃ (orders : Nat → OrderBy le) (k : Nat),
      Resting shown rows removes orders k window ∨ Waiting shown rows removes orders k window := by
  obtain ⟨order, rows', served, hrows, hserve, hsteps⟩ := h
  subst hrows
  induction hsteps with
  | refl => exact ⟨_, 1, .inl (resting_opened hdraw hserve)⟩
  | tail _ hstep ih =>
    obtain ⟨orders, k, hbefore⟩ := ih
    exact step_resting_or_waiting hdraw hbefore hstep

/-- A reader can scroll through any number of pages, whatever orders they come in. -/
theorem exists_resting (orders : Nat → OrderBy le) {k : Nat} (hk : k < totalPages rows.length) :
    ∃ window, Reached removes draw le (· = rows) window ∧ Resting shown rows removes orders (k + 1) window := by
  induction k with
  | zero =>
    have hserve := serve_eq hdraw (orders 0) 0
    have hresting := @resting_opened _ _ _ _ _ removes hdraw _ _ hserve
    refine ⟨_, ⟨orders 0, rows, _, rfl, hserve, .refl⟩, { hresting with stream := ?_ }⟩
    rw [hresting.stream]
    exact gathered_congr fun n hn => by rw [Nat.lt_one_iff.1 hn]
  | succ k ih =>
    obtain ⟨window, hreached, hresting⟩ := ih (Nat.lt_of_succ_lt hk)
    have hwaiting := hresting.scroll hk (show (1 : Int) > 0 - 0 - 60 by decide)
    have hnext := hwaiting.receive hdraw (orders (k + 1))
    rw [Function.update_eq_self] at hnext
    obtain ⟨order, rows', served, hrows, hserve, hsteps⟩ := hreached
    refine ⟨_, ⟨order, rows', served, hrows, hserve,
      (hsteps.tail (.scroll window 1 0 0)).tail (.answer _ (orders (k + 1)) _ _ rfl ?_)⟩,
      hnext⟩
    rw [hwaiting.pending]
    exact List.mem_singleton_self _

/-- What readers have seen who have scrolled to the end. -/
theorem forall_end_iff (P : List α → Prop) :
    (∀ window, Reached removes draw le (· = rows) window → window.pagination = .removed → P window.stream) ↔
      ∀ orders : Nat → OrderBy le, P (gathered shown rows removes orders (totalPages rows.length)) := by
  have hpred : totalPages rows.length - 1 < totalPages rows.length := Nat.sub_lt (totalPages_pos _) Nat.one_pos
  have hsucc : totalPages rows.length - 1 + 1 = totalPages rows.length := Nat.sub_add_cancel (totalPages_pos _)
  constructor
  · intro h orders
    obtain ⟨window, hreached, hresting⟩ := @exists_resting _ _ _ _ _ removes hdraw orders _ hpred
    rw [hsucc] at hresting
    rw [← hresting.stream]
    refine h window hreached ?_
    rw [hresting.pagination, if_neg (Nat.lt_irrefl _)]
    rfl
  · intro h window hreached hremoved
    obtain ⟨orders, k, hcase⟩ := hreached.resting_or_waiting hdraw
    cases hcase with
    | inl hresting =>
      have hk : k = totalPages rows.length := by
        refine Nat.le_antisymm hresting.fits (Nat.le_of_not_lt fun hmore => ?_)
        rw [hresting.pagination, if_pos hmore] at hremoved
        cases hremoved
      rw [hresting.stream, hk]
      exact h orders
    | inr hwaiting =>
      rw [hwaiting.pagination] at hremoved
      cases hremoved

end

/-! ## Readers who have seen everything -/

section
variable {shown : α → Bool} {rows : List α} {removes : Bool}

theorem length_le_totalPages (total_entries : Nat) : total_entries ≤ 10 * totalPages total_entries := by
  unfold totalPages
  split <;> omega

theorem pagesOf_succ (orders : Nat → OrderBy le) (k : Nat) :
    pagesOf orders rows 10 (k + 1) = pagesOf orders rows 10 k ++ (orders k).page rows 10 k := by
  unfold pagesOf
  simp [List.range_succ]

theorem pagesOf_const (order : OrderBy le) (k : Nat) :
    pagesOf (fun _ => order) rows 10 k = (order.reorder rows).take (10 * k) := by
  induction k with
  | zero => rfl
  | succ k ih =>
    rw [pagesOf_succ, ih, Nat.mul_succ, List.take_add]
    rfl

/-- What is seen of the pages, and what was taken off. -/
theorem length_gathered_le (orders : Nat → OrderBy le) (k : Nat) :
    (gathered shown rows removes orders k).length ≤ ((pagesOf orders rows 10 k).filter shown).length := by
  induction k with
  | zero => exact Nat.zero_le _
  | succ k ih =>
    rw [pagesOf_succ, List.filter_append, List.length_append]
    unfold gathered
    dsimp only
    split
    · rw [List.length_dropLast, List.length_append]
      omega
    · rw [List.length_append]
      omega

/-- Once something is shown, a page but the last takes an item off that does not come again. -/
theorem length_gathered_lt {orders : Nat → OrderBy le} {j k : Nat} (hremoves : removes = true) (hj : 0 < j)
    (hmore : j + 1 < totalPages rows.length) (hsome : (pagesOf orders rows 10 (j + 1)).filter shown ≠ []) (hk : j + 1 ≤ k) :
    (gathered shown rows removes orders k).length < ((pagesOf orders rows 10 k).filter shown).length := by
  induction k, hk using Nat.le_induction with
  | base =>
    have hpos := List.length_pos_of_ne_nil hsome
    have hbefore := @length_gathered_le _ _ shown rows removes orders j
    rw [pagesOf_succ, List.filter_append, List.length_append] at hpos ⊢
    unfold gathered
    rw [if_pos ⟨hremoves, hj, hmore⟩, List.length_dropLast, List.length_append]
    omega
  | succ k _ ih =>
    rw [pagesOf_succ, List.filter_append, List.length_append]
    unfold gathered
    dsimp only
    split
    · rw [List.length_dropLast, List.length_append]
      omega
    · rw [List.length_append]
      omega

variable (le) [DecidableRel le]

variable (shown rows removes) in
/-- Nothing that is shown is taken off: there are no pages between the first and the last, or nothing to show on them. -/
def NothingTaken : Prop :=
  removes = true → rows.length ≤ 20 ∨ ∀ a ∈ rows, shown a → totalPages rows.length ≤ before le rows a / 10 + 1

variable {le} (hrefl : ∀ a, le a a)
include hrefl

theorem gathered_eq (h : NothingTaken le shown rows removes) (orders : Nat → OrderBy le) {k : Nat}
    (hk : k ≤ totalPages rows.length) :
    gathered shown rows removes orders k = (pagesOf orders rows 10 k).filter shown := by
  induction k with
  | zero => rfl
  | succ k ih =>
    have hstream : gathered shown rows removes orders k ++ ((orders k).page rows 10 k).filter shown =
        (pagesOf orders rows 10 (k + 1)).filter shown := by
      rw [pagesOf_succ, List.filter_append, ih (Nat.le_of_succ_le hk)]
    unfold gathered
    dsimp only
    rw [hstream]
    split
    · next htaken =>
      obtain ⟨hremoves, hpos, hmore⟩ := htaken
      have hempty : (pagesOf orders rows 10 (k + 1)).filter shown = [] := by
        rw [List.filter_eq_nil_iff]
        intro a ha hshown
        obtain ⟨j, hj, hpage⟩ := List.mem_flatMap.1 ha
        obtain ⟨i, hi, hplace⟩ := ((orders j).mem_page_iff (by decide : 0 < 10)).1 hpage
        have hbefore := (place_between ((orders j).sorted rows) hrefl hi).1
        rw [before_perm ((orders j).perm rows)] at hbefore
        have hrow : a ∈ rows := (orders j).mem_reorder.1 (List.mem_of_getElem? hi)
        have hj := List.mem_range.1 hj
        cases h hremoves with
        | inl hfew =>
          unfold totalPages at hmore
          split at hmore <;> omega
        | inr hlast =>
          have hpages := hlast a hrow hshown
          omega
      rw [hempty]
      rfl
    · rfl

/-- If something is taken off, there are orders in which it is missing. -/
theorem nothingTaken_of_perm (htrans : ∀ a b c, le a b → le b c → le a c) (order : OrderBy le)
    (h : ∀ orders : Nat → OrderBy le, (gathered shown rows removes orders (totalPages rows.length)).Perm (rows.filter shown)) :
    NothingTaken le shown rows removes := by
  intro hremoves
  by_contra hnot
  simp only [not_or, not_forall, not_le] at hnot
  obtain ⟨hmany, a, ha, hshown, hplace⟩ := hnot
  have hupTo : before le rows a < upTo le rows a := by
    obtain ⟨i, hi⟩ := List.mem_iff_getElem?.1 (order.mem_reorder.2 ha)
    have hplaces := place_between (order.sorted rows) hrefl hi
    rw [before_perm (order.perm rows), upTo_perm (order.perm rows)] at hplaces
    omega
  obtain ⟨other, hother⟩ := order.exists_place htrans hrefl ha (Nat.le_refl (before le rows a)) hupTo
  have hpages : 2 < totalPages rows.length := by
    unfold totalPages
    split <;> omega
  obtain ⟨j, hj, hmore, hle⟩ : ∃ j, 0 < j ∧ j + 1 < totalPages rows.length ∧ before le rows a / 10 ≤ j :=
    ⟨max 1 (before le rows a / 10), by omega, by omega, by omega⟩
  have hmem : a ∈ (pagesOf (fun _ => other) rows 10 (j + 1)).filter shown := by
    refine List.mem_filter.2 ⟨List.mem_flatMap.2 ⟨before le rows a / 10, List.mem_range.2 (by omega), ?_⟩, hshown⟩
    exact (other.mem_page_iff (by decide : 0 < 10)).2 ⟨_, hother, rfl⟩
  have hlt := @length_gathered_lt _ _ shown rows removes _ _ _ hremoves hj hmore (List.ne_nil_of_mem hmem) (Nat.le_of_lt hmore)
  have hlength := (h fun _ => other).length_eq
  rw [pagesOf_const, List.take_of_length_le] at hlt
  · rw [hlength, ((other.perm rows).filter shown).length_eq] at hlt
    exact Nat.lt_irrefl _ hlt
  · rw [(other.perm rows).length_eq]
    exact length_le_totalPages _

end

end

/-- A reader who scrolls to the end of a board that does not change has seen everything that is drawn, once, whatever
the orders of the queries, just when the rows of the keys shown are on one page and nothing is taken off. -/
theorem complete_iff {α : Type} {le : α → α → Prop} [DecidableRel le] (htotal : ∀ a b, le a b ∨ le b a)
    (htrans : ∀ a b c, le a b → le b c → le a c) {draw : α → Except Error Bool} {shown : α → Bool} {rows : List α}
    (hnodup : rows.Nodup) (hdraw : ∀ row ∈ rows, draw row = .ok (shown row)) (removes : Bool) :
    (∀ window, Reached removes draw le (· = rows) window → window.pagination = .removed →
      window.stream.Perm (rows.filter shown)) ↔
      PagesApart le rows shown 10 ∧ NothingTaken le shown rows removes := by
  have hrefl (a : α) : le a a := (htotal a a).elim id id
  rw [forall_end_iff hdraw (fun stream => stream.Perm (rows.filter shown)),
    ← pages_perm_iff htotal htrans hnodup shown (by decide : 0 < 10) (length_le_totalPages rows.length)]
  constructor
  · intro h
    have htaken := nothingTaken_of_perm hrefl htrans (OrderBy.stable htotal htrans) h
    refine ⟨fun orders => ?_, htaken⟩
    rw [← gathered_eq hrefl htaken orders (Nat.le_refl _)]
    exact h orders
  · rintro ⟨hpages, htaken⟩ orders
    rw [gathered_eq hrefl htaken orders (Nat.le_refl _)]
    exact hpages orders

/-! ## The boards -/

/-- The boards in the order of the scores. -/
inductive Popular (db : Db) : List Stream → Prop where
  | stock (stock_id : Nat) : Popular db (streamsOf db ⟨.stock, stock_id⟩)
  | feed {relationships : List Relationship} {user_id : Nat} {streams : List Stream}
    (h : Stream.feed db relationships user_id = .ok streams) : Popular db streams

/-- Whether a stream is drawn. -/
def shown (board : Posts.Board) (stream : Stream) : Bool :=
  match draws board stream with
  | .ok drawn => drawn
  | .error _ => false

theorem Popular.sublist {db : Db} {streams : List Stream} (h : Popular db streams) :
    ∃ kept : Stream → Bool, streams = db.streams.filter kept ∨ streams = (db.streams.filter kept).reverse := by
  cases h with
  | stock stock_id => exact ⟨_, .inl rfl⟩
  | feed h =>
    obtain ⟨⟨ids, types⟩, -, h⟩ := SharedStore.bind_eq_ok h
    cases h
    exact ⟨_, .inr rfl⟩

theorem nodup_byPopularityScore (db : Db) {streams : List Stream} (hnodup : streams.Nodup) :
    (byPopularityScore db streams).Nodup := by
  have hrows : db.popularities.zipIdx.Nodup := by
    refine List.Nodup.of_map Prod.snd ?_
    rw [List.zipIdx_map_snd]
    exact List.nodup_range'
  unfold byPopularityScore
  rw [List.nodup_flatMap]
  constructor
  · intro stream _
    exact (hrows.filter _).map fun a b h => (Prod.mk.inj h).2
  · refine hnodup.imp ?_
    intro stream stream' hne row hrow hrow'
    obtain ⟨popularity, -, rfl⟩ := List.mem_map.1 hrow
    obtain ⟨popularity', -, heq⟩ := List.mem_map.1 hrow'
    exact hne (congrArg Prod.fst heq).symm

/-- A reader who scrolls to the end of a board that does not change has seen each item of it once, in whatever orders
the database gives streams of one score or time, just when

* on the board of a user, the streams of the time of one that is shown are on one page;
* on the board of a stock and on the feed, so are those of a score, and there are no more than twenty rows, or none
  that is shown before the last page. -/
theorem boards_complete_iff (board : Posts.Board) (created_at : Stream → Time) (hstreams : board.streams.Nodup)
    (hdraws : ∀ stream ∈ board.streams, draws board stream = .ok (shown board stream)) :
    (∀ streams, Popular board.toDb streams →
      ((∀ window, Reached true (fun row => draws board row.1) Higher (· = byPopularityScore board.toDb streams) window →
        window.pagination = .removed →
        window.stream.Perm ((byPopularityScore board.toDb streams).filter fun row => shown board row.1)) ↔
      PagesApart Higher (byPopularityScore board.toDb streams) (fun row => shown board row.1) 10 ∧
        NothingTaken Higher (fun row => shown board row.1) (byPopularityScore board.toDb streams) true)) ∧
    ∀ user_id,
      (∀ window, Reached false (draws board) (Newer created_at) (· = streamsOf board.toDb ⟨.user, user_id⟩) window →
        window.pagination = .removed →
        window.stream.Perm ((streamsOf board.toDb ⟨.user, user_id⟩).filter (shown board))) ↔
      PagesApart (Newer created_at) (streamsOf board.toDb ⟨.user, user_id⟩) (shown board) 10 := by
  constructor
  · intro streams hpopular
    obtain ⟨kept, hkept⟩ := hpopular.sublist
    have hnodup : streams.Nodup := by
      cases hkept with
      | inl hkept => exact hkept ▸ hstreams.filter kept
      | inr hkept => exact hkept ▸ List.nodup_reverse.2 (hstreams.filter kept)
    have hmem : ∀ stream ∈ streams, stream ∈ board.streams := by
      intro stream hstream
      cases hkept with
      | inl hkept => exact List.mem_of_mem_filter (hkept ▸ hstream)
      | inr hkept => exact List.mem_of_mem_filter (List.mem_reverse.1 (hkept ▸ hstream))
    refine complete_iff higher_total higher_trans (nodup_byPopularityScore board.toDb hnodup) ?_ true
    intro row hrow
    obtain ⟨stream, hstream, hrow⟩ := List.mem_flatMap.1 hrow
    obtain ⟨popularity, -, rfl⟩ := List.mem_map.1 hrow
    exact hdraws stream (hmem stream hstream)
  · intro user_id
    have hnodup : (streamsOf board.toDb ⟨.user, user_id⟩).Nodup := hstreams.filter _
    have hnothing : NothingTaken (Newer created_at) (shown board) (streamsOf board.toDb ⟨.user, user_id⟩) false := nofun
    have hdrawn : ∀ stream ∈ streamsOf board.toDb ⟨.user, user_id⟩, draws board stream = .ok (shown board stream) :=
      fun stream hstream => hdraws stream (List.mem_of_mem_filter hstream)
    rw [complete_iff (newer_total created_at) (newer_trans created_at) hnodup hdrawn false, and_iff_left hnothing]

theorem boards_complete_iff_eleven :
    ¬∀ window, Reached true (fun row => draws elevenComments row.1) Higher
      (· = byPopularityScore elevenComments.toDb (streamsOf elevenComments.toDb ⟨.stock, 1⟩)) window →
        window.pagination = .removed →
        window.stream.Perm ((byPopularityScore elevenComments.toDb (streamsOf elevenComments.toDb ⟨.stock, 1⟩)).filter
          fun row => shown elevenComments row.1) := by
  rw [(boards_complete_iff elevenComments (fun _ => 0) (by decide) (by decide)).1 _ (.stock 1)]
  rintro ⟨hapart, -⟩
  exact absurd hapart (by decide)

end MyStockIQ.Boards
