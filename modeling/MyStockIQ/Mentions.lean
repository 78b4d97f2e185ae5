import MyStockIQ.Posting
/-!
# What a text mentions

A word after its sign is looked up, and if nothing has that name, what is left
of it without its last character. That is meant for punctuation, but the code
does not look at the character, and asks for the shorter name only if the
longer one is unknown.
-/

open SharedStore Prog

namespace MyStockIQ

/-! ## Names -/

def tagKinds : List TagKind := [stockTag, userTag]

theorem stockTag_mem : stockTag ∈ tagKinds := List.mem_cons_self

theorem userTag_mem : userTag ∈ tagKinds := List.mem_cons_of_mem _ List.mem_cons_self

section
variable (punctuation : Char → Prop) (db : Db)

/-- `word` is the sign and the name of `ref`, and maybe one punctuation character. -/
def Names (word : String) (ref : Ref) : Prop :=
  ∃ kind ∈ tagKinds, ∃ name id, kind.find db name = some id ∧ ref = ⟨kind.type, id⟩ ∧
    (word = kind.sign ++ name ∨ ∃ c, punctuation c ∧ word = kind.sign ++ name.push c)

/-- Where `word` without its last character is a name too, that character is
what decides: if all of `word` is a name it must be no punctuation, otherwise it
must be punctuation, behind a name that is not empty. -/
def Clear (word : String) : Prop :=
  ∀ kind ∈ tagKinds, ∀ name c id, word = kind.sign ++ String.push name c → kind.find db name = some id →
    match kind.find db (name.push c) with
    | some whole => punctuation c → id = whole
    | none => punctuation c ↔ name ≠ ""

end

/-! ## One word -/

theorem eq_empty_or_push (s : String) : s = "" ∨ ∃ t : String, ∃ c, s = t.push c := by
  rcases List.eq_nil_or_concat s.toList with h | ⟨cs, c, h⟩
  · left
    exact String.toList_inj.1 h
  · right
    refine ⟨String.ofList cs, c, String.toList_inj.1 ?_⟩
    rw [h, String.toList_push, String.toList_ofList, List.concat_eq_append]

theorem withoutLast_push (name : String) (c : Char) :
    withoutLast (name.push c) = if name = "" then name.push c else name := by
  unfold withoutLast
  rw [String.toList_push, List.length_append, List.dropLast_concat, String.ofList_toList]
  by_cases h : name = ""
  · subst h
    rfl
  · have hne : name.toList ≠ [] := fun hnil => h (String.toList_inj.1 hnil)
    have hlen := List.length_pos_of_ne_nil hne
    rw [if_neg h, if_neg (by simp; omega)]

section
variable {db : Db} {kind : TagKind}

theorem targets_empty : kind.targets db "" = ((kind.find db "").map (⟨kind.type, ·⟩)).toList := by
  unfold TagKind.targets
  cases h : kind.find db "" with
  | some id => rfl
  | none =>
    have hshort : withoutLast "" = "" := by decide
    simp [hshort, h]

theorem targets_known {name : String} {id : Nat} (h : kind.find db name = some id) :
    kind.targets db name = [⟨kind.type, id⟩] := by
  unfold TagKind.targets
  rw [h]

theorem targets_unknown {name : String} {c : Char} (h : kind.find db (name.push c) = none) :
    kind.targets db (name.push c) =
      if name = "" then [] else ((kind.find db name).map (⟨kind.type, ·⟩)).toList := by
  unfold TagKind.targets
  rw [h, withoutLast_push]
  by_cases hname : name = ""
  · simp [if_pos hname, h]
  · simp [if_neg hname]

/-- A word starts with at most one sign. -/
theorem sign_inj {kind' : TagKind} (hkind : kind ∈ tagKinds) (hkind' : kind' ∈ tagKinds) {name name' : String}
    (h : kind.sign ++ name = kind'.sign ++ name') : kind = kind' ∧ name = name' := by
  have hlist := congrArg String.toList h
  rw [String.toList_append, String.toList_append] at hlist
  simp only [tagKinds, List.mem_cons, List.not_mem_nil, or_false] at hkind hkind'
  rcases hkind with rfl | rfl <;> rcases hkind' with rfl | rfl
  · exact ⟨rfl, String.toList_inj.1 (List.append_cancel_left hlist)⟩
  · exact absurd (congrArg List.head? hlist) (by simp [stockTag, userTag])
  · exact absurd (congrArg List.head? hlist) (by simp [stockTag, userTag])
  · exact ⟨rfl, String.toList_inj.1 (List.append_cancel_left hlist)⟩

theorem wordTargets_sign (hkind : kind ∈ tagKinds) (name : String) :
    db.wordTargets (kind.sign ++ name) = kind.targets db name := by
  simp only [tagKinds, List.mem_cons, List.not_mem_nil, or_false] at hkind
  rcases hkind with rfl | rfl
  · have hword : ("$" ++ name).toList = '$' :: name.toList := String.toList_append
    exact (wordTargets_stock hword db).trans (by rw [String.ofList_toList])
  · have hword : ("@" ++ name).toList = '@' :: name.toList := String.toList_append
    exact (wordTargets_user hword db).trans (by rw [String.ofList_toList])

theorem wordTargets_plain {word : String} (h : ∀ kind ∈ tagKinds, ∀ name, word ≠ kind.sign ++ name) :
    db.wordTargets word = [] := by
  refine wordTargets_none (fun rest hrest => ?_) (fun rest hrest => ?_) db
  · refine h stockTag stockTag_mem (String.ofList rest) (String.toList_inj.1 ?_)
    rw [hrest, String.toList_append, String.toList_ofList]
    rfl
  · refine h userTag userTag_mem (String.ofList rest) (String.toList_inj.1 ?_)
    rw [hrest, String.toList_append, String.toList_ofList]
    rfl

/-- What a name after its sign names. -/
theorem names_sign {punctuation : Char → Prop} (hkind : kind ∈ tagKinds) (name : String) (ref : Ref) :
    Names punctuation db (kind.sign ++ name) ref ↔ ∃ short id, kind.find db short = some id ∧ ref = ⟨kind.type, id⟩ ∧
      (name = short ∨ ∃ c, punctuation c ∧ name = short.push c) := by
  constructor
  · rintro ⟨kind', hkind', short, id, hfind, href, hword⟩
    rcases hword with hword | ⟨c, hc, hword⟩
    · obtain ⟨rfl, rfl⟩ := sign_inj hkind hkind' hword
      exact ⟨name, id, hfind, href, .inl rfl⟩
    · obtain ⟨rfl, rfl⟩ := sign_inj hkind hkind' hword
      exact ⟨short, id, hfind, href, .inr ⟨c, hc, rfl⟩⟩
  · rintro ⟨short, id, hfind, href, rfl | ⟨c, hc, rfl⟩⟩
    · exact ⟨kind, hkind, name, id, hfind, href, .inl rfl⟩
    · exact ⟨kind, hkind, short, id, hfind, href, .inr ⟨c, hc, rfl⟩⟩

theorem names_empty {punctuation : Char → Prop} (hkind : kind ∈ tagKinds) (ref : Ref) :
    Names punctuation db (kind.sign ++ "") ref ↔ ∃ id, kind.find db "" = some id ∧ ref = ⟨kind.type, id⟩ := by
  rw [names_sign hkind]
  constructor
  · rintro ⟨short, id, hfind, href, rfl | ⟨c, -, hname⟩⟩
    · exact ⟨id, hfind, href⟩
    · exact absurd hname.symm String.push_ne_empty
  · rintro ⟨id, hfind, href⟩
    exact ⟨"", id, hfind, href, .inl rfl⟩

theorem names_push {punctuation : Char → Prop} (hkind : kind ∈ tagKinds) (short : String) (c : Char) (ref : Ref) :
    Names punctuation db (kind.sign ++ short.push c) ref ↔
      (∃ id, kind.find db (short.push c) = some id ∧ ref = ⟨kind.type, id⟩) ∨
      (punctuation c ∧ ∃ id, kind.find db short = some id ∧ ref = ⟨kind.type, id⟩) := by
  rw [names_sign hkind]
  constructor
  · rintro ⟨name, id, hfind, href, rfl | ⟨d, hd, hname⟩⟩
    · exact .inl ⟨id, hfind, href⟩
    · obtain ⟨rfl, rfl⟩ := String.push_inj.1 hname
      exact .inr ⟨hd, id, hfind, href⟩
  · rintro (⟨id, hfind, href⟩ | ⟨hc, id, hfind, href⟩)
    · exact ⟨_, id, hfind, href, .inl rfl⟩
    · exact ⟨short, id, hfind, href, .inr ⟨c, hc, rfl⟩⟩

theorem clear_empty {punctuation : Char → Prop} (hkind : kind ∈ tagKinds) : Clear punctuation db (kind.sign ++ "") := by
  intro kind' hkind' name c id hword
  exact absurd (sign_inj hkind hkind' hword).2.symm String.push_ne_empty

theorem clear_push {punctuation : Char → Prop} (hkind : kind ∈ tagKinds) (short : String) (c : Char) :
    Clear punctuation db (kind.sign ++ short.push c) ↔ ∀ id, kind.find db short = some id →
      match kind.find db (short.push c) with
      | some whole => punctuation c → id = whole
      | none => punctuation c ↔ short ≠ "" := by
  constructor
  · intro h id hfind
    exact h kind hkind short c id rfl hfind
  · intro h kind' hkind' name d id hword hfind
    obtain ⟨rfl, hname⟩ := sign_inj hkind hkind' hword
    obtain ⟨rfl, rfl⟩ := String.push_inj.1 hname
    exact h id hfind

/-- The loop resolves a word to exactly what it names if and only if the word is clear. -/
theorem targets_iff (punctuation : Char → Prop) (hkind : kind ∈ tagKinds) (name : String) :
    (∀ ref, ref ∈ kind.targets db name ↔ Names punctuation db (kind.sign ++ name) ref) ↔
      Clear punctuation db (kind.sign ++ name) := by
  rcases eq_empty_or_push name with rfl | ⟨short, c, rfl⟩
  · refine iff_of_true (fun ref => ?_) (clear_empty hkind)
    rw [names_empty hkind, targets_empty]
    cases kind.find db "" with
    | none => simp
    | some id => simp
  · simp only [names_push hkind, clear_push hkind]
    cases hwhole : kind.find db (short.push c) with
    | some whole =>
      -- Found with its last character, the name is not looked up without it.
      rw [targets_known hwhole]
      constructor
      · intro h id hfind hc
        have hmem := (h ⟨kind.type, id⟩).2 (.inr ⟨hc, id, hfind, rfl⟩)
        exact congrArg Ref.id (List.mem_singleton.1 hmem)
      · intro h ref
        rw [List.mem_singleton]
        constructor
        · rintro rfl
          exact .inl ⟨whole, rfl, rfl⟩
        · rintro (⟨id, hid, rfl⟩ | ⟨hc, id, hfind, rfl⟩)
          · rw [Option.some.inj hid]
          · rw [h id hfind hc]
    | none =>
      rw [targets_unknown hwhole]
      cases hshort : kind.find db short with
      | none => simp
      | some id =>
        by_cases hempty : short = ""
        · simp [hempty]
        · simp [hempty]

/-- The same for any word: one without a sign names nothing. -/
theorem wordTargets_iff (punctuation : Char → Prop) (db : Db) (word : String) :
    (∀ ref, ref ∈ db.wordTargets word ↔ Names punctuation db word ref) ↔ Clear punctuation db word := by
  by_cases h : ∃ kind ∈ tagKinds, ∃ name, word = kind.sign ++ name
  · obtain ⟨kind, hkind, name, rfl⟩ := h
    rw [wordTargets_sign hkind]
    exact targets_iff punctuation hkind name
  · refine iff_of_true (fun ref => ?_) fun kind hkind name c id hword _ => (h ⟨kind, hkind, _, hword⟩).elim
    rw [wordTargets_plain fun kind hkind name hword => h ⟨kind, hkind, name, hword⟩]
    refine iff_of_false List.not_mem_nil ?_
    rintro ⟨kind, hkind, name, id, -, -, hword | ⟨c, -, hword⟩⟩
    · exact h ⟨kind, hkind, name, hword⟩
    · exact h ⟨kind, hkind, _, hword⟩

end

/-! ## The whole text -/

/-- `add_tags` on `content` returns `tags`, of which `leading` is for the ticker symbol put first:
that of a stock, or none at all for a reply. -/
inductive AddTags (db : Db) (content : String) : List Ref → List (Option Ref) → Prop
  | ticker {ticker_symbol : String} {stock : Stock} {tagable_type : ClassName} {tagable_id : Option Nat} {id : Nat}
      {tags : List (Option Ref)} {db' : Db} : db.stockTicker ticker_symbol = some stock →
      (addTags (some content) ticker_symbol tagable_type tagable_id).run Db.exec db = (.ok (id, tags), db') →
      AddTags db content [⟨.stock, stock.id⟩] tags
  | plain {tagable_type : ClassName} {tagable_id : Nat} {tags : List (Option Ref)} {db' : Db} :
      (Posts.addWordTags content tagable_type tagable_id).run Db.exec db = (.ok tags, db') → AddTags db content [] tags

/-- The body of the loop resolves `word` to `refs`. -/
def Resolves (db : Db) (word : String) (refs : List Ref) : Prop :=
  ∃ tagged, (tagWord word).run Db.exec db = (.ok (tagged, refs.map some), db)

/-- Behind `leading`, `tags` is what the words resolve to, in their order, and each to exactly what it names. -/
def Mentioned (punctuation : Char → Prop) (db : Db) (content : String) (leading : List Ref) (tags : List (Option Ref)) :
    Prop :=
  ∃ parts : List (List Ref), tags = (leading ++ parts.flatten).map some ∧
    List.Forall₂ (fun word refs => Resolves db word refs ∧ ∀ ref, ref ∈ refs ↔ Names punctuation db word ref)
      (words content) parts

section
variable {db : Db} {content : String} {leading : List Ref} {tags : List (Option Ref)}

theorem resolves_iff (db : Db) (word : String) (refs : List Ref) : Resolves db word refs ↔ refs = db.wordTargets word := by
  obtain ⟨tagged, hrun⟩ := run_tagWord word db
  unfold Resolves
  simp only [hrun, Prod.mk.injEq, Except.ok.injEq, and_true]
  constructor
  · rintro ⟨_, -, hrefs⟩
    exact (List.map_injective_iff.2 (Option.some_injective Ref) hrefs).symm
  · rintro rfl
    exact ⟨tagged, rfl, rfl⟩

theorem AddTags.eq (h : AddTags db content leading tags) :
    tags = (leading ++ (words content).flatMap db.wordTargets).map some := by
  cases h with
  | @ticker ticker_symbol stock tagable_type tagable_id id _ _ hstock hrun =>
    obtain ⟨text, htags⟩ := run_addTags content ticker_symbol tagable_type tagable_id db
    have hfirst : db.wordTargets ("$" ++ ticker_symbol) = [⟨.stock, stock.id⟩] := by
      refine (wordTargets_sign stockTag_mem ticker_symbol).trans (targets_known ?_)
      exact congrArg (Option.map (·.id)) hstock
    rw [htags] at hrun
    obtain ⟨-, rfl⟩ := Prod.mk.inj (Except.ok.inj (Prod.mk.inj hrun).1)
    rw [Db.targets, List.flatMap_cons, hfirst]
  | plain hrun =>
    obtain ⟨tagged, hwords⟩ := run_tagWords (words content) db
    unfold Posts.addWordTags at hrun
    rw [bind_eq, run_bind_ok Db.exec hwords] at hrun
    exact (Except.ok.inj (Prod.mk.inj hrun).1).symm

theorem exists_addTags (db : Db) (content : String) : ∃ tags, AddTags db content [] tags := by
  obtain ⟨tagged, hwords⟩ := run_tagWords (words content) db
  have hrun : (Posts.addWordTags content .reply 0).run Db.exec db = _ := run_bind_ok Db.exec hwords _
  exact ⟨_, .plain hrun⟩

theorem mentioned_iff (punctuation : Char → Prop) (h : AddTags db content leading tags) :
    Mentioned punctuation db content leading tags ↔ ∀ word ∈ words content, Clear punctuation db word := by
  constructor
  · rintro ⟨parts, -, hparts⟩
    have hclear : List.Forall₂ (fun word _ => Clear punctuation db word ∧ True) (words content) parts := by
      refine hparts.imp ?_
      rintro word refs ⟨hresolves, hnames⟩
      rw [(resolves_iff db word refs).1 hresolves] at hnames
      exact ⟨(wordTargets_iff punctuation db word).1 hnames, trivial⟩
    exact ((List.forall₂_and_left _ _).1 hclear).1
  · intro hclear
    refine ⟨(words content).map db.wordTargets, by rw [h.eq, List.flatMap_def], ?_⟩
    rw [List.forall₂_map_right_iff, List.forall₂_same]
    intro word hword
    exact ⟨(resolves_iff db word _).2 rfl, (wordTargets_iff punctuation db word).2 (hclear word hword)⟩

end

/-- Whatever counts as punctuation, `add_tags` resolves the mentions of a text
soundly and completely if and only if every word of the text is clear. -/
theorem mentions_resolved_iff (punctuation : Char → Prop) (db : Db) (content : String) :
    (∀ leading tags, AddTags db content leading tags → Mentioned punctuation db content leading tags) ↔
      ∀ word ∈ words content, Clear punctuation db word := by
  constructor
  · intro h
    obtain ⟨tags, htags⟩ := exists_addTags db content
    exact (mentioned_iff punctuation htags).1 (h [] tags htags)
  · intro hclear leading tags htags
    exact (mentioned_iff punctuation htags).2 hclear

/-- `$ABCD` is resolved to the stock ABC. -/
theorem mentions_unsound :
    ¬∀ punctuation : Char → Prop, (∀ c, punctuation c → c.isAlphanum = false) → ∀ db content leading tags,
      AddTags db content leading tags → Mentioned punctuation db content leading tags := by
  intro h
  obtain ⟨tags, htags⟩ := exists_addTags oneStock "up $ABCD"
  have hmentioned := h (fun c => c ∈ ['.', ',', '!', '?']) (by simp) oneStock "up $ABCD" [] tags htags
  have hclear := (mentioned_iff _ htags).1 hmentioned "$ABCD" (by decide)
  exact absurd ((hclear stockTag stockTag_mem "ABC" 'D' 1 rfl rfl).2 (by decide)) (by decide)

end MyStockIQ
