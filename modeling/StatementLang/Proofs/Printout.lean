import Mathlib
import StatementLang.Proofs.Quoting
import StatementLang.Proofs.Renderings

/-!
A printed derivation can be read back.

Every line begins behind its blanks, and goes up to its first quote with what it is about; behind
that stand the value of a token, which shows its end, and its line. So a line tells all of its event
but for the column of a token (`Event.Proper.line?_eq_iff`), and a printout tells all of its events
(`printouts_tell_events`).
-/

namespace StatementLang

open Printer Session

lemma append_injective_of_border {α : Type} {P : α → Prop} {as as' bs bs' : List α}
    (has : ∀ a ∈ as, ¬ P a) (has' : ∀ a ∈ as', ¬ P a) (hbs : ∀ b ∈ bs.head?, P b)
    (hbs' : ∀ b ∈ bs'.head?, P b) (h : as ++ bs = as' ++ bs') : as = as' ∧ bs = bs' := by
  induction as generalizing as' with
  | nil =>
    cases as' with
    | nil => exact ⟨rfl, h⟩
    | cons a as' =>
      rw [List.nil_append] at h
      subst h
      exact absurd (hbs a rfl) (has' a List.mem_cons_self)
  | cons a as ih =>
    obtain ⟨hnot, has⟩ := List.forall_mem_cons.1 has
    cases as' with
    | nil =>
      rw [List.nil_append] at h
      subst h
      exact absurd (hbs' a rfl) hnot
    | cons a' as' =>
      obtain ⟨rfl, htail⟩ := List.cons.inj h
      obtain ⟨rfl, rfl⟩ := ih has (List.forall_mem_cons.1 has').2 htail
      exact ⟨rfl, rfl⟩

lemma of_isDigit {p : Nat → Bool} (hall : ∀ n < 58, 48 ≤ n → p n = true) {c : Char}
    (h : c.isDigit = true) : p c.toNat = true := by
  simp only [Char.isDigit, Bool.and_eq_true, decide_eq_true_eq] at h
  have hlow : 48 ≤ c.toNat := h.1
  have hhigh : c.toNat ≤ 57 := h.2
  exact hall c.toNat (by omega) hlow

lemma isPrintable_of_isDigit {c : Char} (h : c.isDigit = true) : Text.isPrintable c :=
  of_isDigit (p := fun n => !Text.inRanges n Text.unprintableRanges) (by decide) h

lemma isDigit_of_mem_repr {m : Nat} {c : Char} (h : c ∈ m.repr.toList) : c.isDigit = true := by
  rw [Nat.toList_repr] at h
  exact Nat.isDigit_of_mem_toDigits (by decide) (by decide) h

lemma toList_negSucc (m : Nat) :
    (toString (Int.negSucc m)).toList = '-' :: m.succ.repr.toList := by
  change ("-" ++ m.succ.repr).toList = _
  rw [String.toList_append]
  rfl

lemma isPrintable_toString (n : Int) : ∀ c ∈ (toString n).toList, Text.isPrintable c := by
  have hnat (m : Nat) : ∀ c ∈ m.repr.toList, Text.isPrintable c := fun c hc =>
    isPrintable_of_isDigit (isDigit_of_mem_repr hc)
  cases n with
  | ofNat m => exact hnat m
  | negSucc m =>
    rw [toList_negSucc]
    exact List.forall_mem_cons.2 ⟨by decide, hnat m.succ⟩

namespace Event

/-- What the line for an event is about: a phrase, or a token of some kind. -/
def topic (e : Event) : String :=
  match e.tag, e.token.bind (·.kind.name?) with
  | .enter, _ => "-> " ++ e.name
  | .leave, _ => "<- " ++ e.name
  | _, some name => name ++ " "
  | _, none => ""

/-- What the line for an event says about a token. -/
def details (e : Event) : String :=
  match e.token with
  | some t => Text.quoted t.value ++ " (line " ++ toString t.line ++ ")"
  | none => ""

/-- A line begins with the text, which shows where the blanks before it end and where the quotes
behind it begin. -/
structure IsTopic (text : String) : Prop where
  not_quote : ∀ c ∈ text.toList, ¬ Lexeme.IsQuote c
  printable : ∀ c ∈ text.toList, Text.isPrintable c
  begins : ∃ c cs, text.toList = c :: cs ∧ c ≠ ' '

lemma IsTopic.of_all {text : String}
    (hall : text.toList.all fun c => decide (¬ Lexeme.IsQuote c) && Text.isPrintable c)
    (hhead : text.toList.head?.any (· ≠ ' ')) : IsTopic text := by
  simp only [List.all_eq_true, Bool.and_eq_true, decide_eq_true_eq] at hall
  refine ⟨fun c hc => (hall c hc).1, fun c hc => (hall c hc).2, ?_⟩
  cases htext : text.toList with
  | nil => rw [htext] at hhead; cases hhead
  | cons c cs =>
    rw [htext] at hhead
    exact ⟨c, cs, rfl, of_decide_eq_true hhead⟩

@[simp] lemma topic_ofEnter (name : String) : (ofEnter name).topic = "-> " ++ name := rfl
@[simp] lemma topic_ofLeave (name : String) : (ofLeave name).topic = "<- " ++ name := rfl

lemma topic_ofToken {t : Token} {x : Symbol} (h : t.kind = .known x) :
    (ofToken t).topic = x.name ++ " " := by
  simp [topic, ofToken, h, Kind.name?, Kind.symbol?]

@[simp] lemma details_ofEnter (name : String) : (ofEnter name).details = "" := rfl
@[simp] lemma details_ofLeave (name : String) : (ofLeave name).details = "" := rfl

@[simp] lemma details_ofToken (t : Token) : (ofToken t).details =
    Text.quoted t.value ++ " (line " ++ toString t.line ++ ")" := rfl

variable {e e' : Event}

namespace Proper

lemma line?_eq (h : e.Proper) : e.line? = some (e.topic ++ e.details) := by
  cases h with
  | enter n => rw [topic_ofEnter, details_ofEnter, String.append_empty]; rfl
  | leave n => rw [topic_ofLeave, details_ofLeave, String.append_empty]; rfl
  | @token t x h =>
    rw [topic_ofToken h]
    simp [line?, ofToken, details, h, Kind.name?, Kind.symbol?, String.append_assoc]

lemma isTopic (h : e.Proper) : IsTopic e.topic := by
  cases h with
  | enter n => rw [topic_ofEnter]; cases n <;> exact .of_all (by decide) (by decide)
  | leave n => rw [topic_ofLeave]; cases n <;> exact .of_all (by decide) (by decide)
  | @token t x h => rw [topic_ofToken h]; cases x <;> exact .of_all (by decide) (by decide)

end Proper

lemma toList_details_ofToken (t : Token) : (ofToken t).details.toList =
    (Text.quoted t.value).toList ++ (" (line " ++ toString t.line ++ ")").toList := by
  simp [String.toList_append]

lemma Proper.head_details (h : e.Proper) : ∀ c ∈ e.details.toList.head?, Lexeme.IsQuote c := by
  cases h with
  | enter | leave => nofun
  | @token t x h =>
    obtain ⟨q, cs, hcs, hq⟩ := Text.exists_quoted_cons t.value
    rw [toList_details_ofToken, hcs]
    rintro c ⟨⟩
    exact hq

lemma Proper.isPrintable_details (h : e.Proper) : ∀ c ∈ e.details.toList, Text.isPrintable c := by
  cases h with
  | enter | leave => nofun
  | @token t x h =>
    have hopening : ∀ c ∈ " (line ".toList, Text.isPrintable c :=
      List.all_eq_true.1 (show " (line ".toList.all Text.isPrintable by decide)
    have hclosing : ∀ c ∈ ")".toList, Text.isPrintable c :=
      List.all_eq_true.1 (show ")".toList.all Text.isPrintable by decide)
    rw [toList_details_ofToken]
    simp only [String.toList_append, List.forall_mem_append]
    exact ⟨Text.isPrintable_quoted t.value, ⟨hopening, isPrintable_toString t.line⟩, hclosing⟩

/-! ### What a line tells -/

/-- The event, but for the column of its token. -/
def withoutColumn (e : Event) : Event :=
  { e with token := e.token.map fun t => { t with column := 0 } }

lemma eq_of_details {t t' : Token} (h : (ofToken t).details = (ofToken t').details) :
    t.value = t'.value ∧ t.line = t'.line := by
  have hlist := congrArg String.toList h
  rw [toList_details_ofToken, toList_details_ofToken] at hlist
  obtain ⟨hvalue, hline⟩ := Text.quoted_append_injective hlist
  rw [String.toList_inj, String.append_left_inj, String.append_right_inj] at hline
  exact ⟨hvalue, Int.repr_injective hline⟩

lemma details_ofToken_ne (t : Token) : (ofToken t).details ≠ "" := by
  obtain ⟨q, cs, hcs, -⟩ := Text.exists_quoted_cons t.value
  intro h
  have hlist := congrArg String.toList h
  rw [toList_details_ofToken, hcs] at hlist
  cases hlist

end Event

lemma Symbol.name_injective {x y : Symbol} (h : x.name = y.name) : x = y := by
  have hfind (s : Symbol) : all.find? (·.name = s.name) = some s := by
    cases s <;> decide
  have hx := hfind x
  rw [h, hfind y] at hx
  exact (Option.some.inj hx).symm

namespace Event

variable {e e' : Event}

lemma Proper.eq_of_topic (h : e.Proper) (h' : e'.Proper) (htopic : e.topic = e'.topic)
    (hdetails : e.details = e'.details) : e.withoutColumn = e'.withoutColumn := by
  have hsigns (m n : String) : "-> " ++ m ≠ "<- " ++ n := by
    intro hsign
    have hlist := congrArg String.toList hsign
    rw [String.toList_append, String.toList_append] at hlist
    exact absurd (List.cons.inj hlist).1 (by decide)
  cases h with
  | enter m =>
    cases h' with
    | enter n =>
      have hname : m.name = n.name := (String.append_right_inj "-> ").1 htopic
      rw [hname]
    | leave n => exact absurd htopic (hsigns _ _)
    | token => exact absurd hdetails.symm (details_ofToken_ne _)
  | leave m =>
    cases h' with
    | enter n => exact absurd htopic.symm (hsigns _ _)
    | leave n =>
      have hname : m.name = n.name := (String.append_right_inj "<- ").1 htopic
      rw [hname]
    | token => exact absurd hdetails.symm (details_ofToken_ne _)
  | @token t x hx =>
    cases h' with
    | enter | leave => exact absurd hdetails (details_ofToken_ne _)
    | @token t' y hy =>
      rw [topic_ofToken hx, topic_ofToken hy, String.append_left_inj] at htopic
      obtain rfl := Symbol.name_injective htopic
      obtain ⟨hvalue, hline⟩ := eq_of_details hdetails
      simp [withoutColumn, ofToken, hx, hy, hvalue, hline]

lemma line?_withoutColumn (e : Event) : e.withoutColumn.line? = e.line? := by
  obtain ⟨tag, name, _ | t⟩ := e <;> cases tag <;> rfl

theorem Proper.line?_eq_iff (h : e.Proper) (h' : e'.Proper) :
    e.line? = e'.line? ↔ e.withoutColumn = e'.withoutColumn := by
  constructor
  · intro hline
    rw [h.line?_eq, h'.line?_eq, Option.some.injEq] at hline
    have hlist := congrArg String.toList hline
    rw [String.toList_append, String.toList_append] at hlist
    obtain ⟨htopic, hdetails⟩ := append_injective_of_border h.isTopic.not_quote
      h'.isTopic.not_quote h.head_details h'.head_details hlist
    exact h.eq_of_topic h' (String.toList_inj.1 htopic) (String.toList_inj.1 hdetails)
  · intro heq
    rw [← e.line?_withoutColumn, heq, e'.line?_withoutColumn]

/-- A token is told from the end of a phrase, and its value from what stands behind it. -/
example : (ofToken ⟨.known .less, "it's (line 3)", 4, 7⟩).line? =
    some "< \"it's (line 3)\" (line 4)" := by
  rfl

end Event

/-! ### What a printout tells -/

namespace Printer

lemma toList_textOf_cons (line : String) (lines : List String) :
    (textOf (line :: lines)).toList = line.toList ++ '\n' :: (textOf lines).toList := by
  simp [textOf]

lemma textOf_cons_ne (line : String) (lines : List String) :
    textOf (line :: lines) ≠ textOf [] := by
  intro h
  have hlist := congrArg String.toList h
  rw [toList_textOf_cons] at hlist
  simp [textOf] at hlist

lemma textOf_injective {lines lines' : List String} (h : ∀ l ∈ lines, '\n' ∉ l.toList)
    (h' : ∀ l ∈ lines', '\n' ∉ l.toList) (heq : textOf lines = textOf lines') :
    lines = lines' := by
  have hborder {cs : List Char} (hcs : '\n' ∉ cs) : ∀ c ∈ cs, ¬ c = '\n' := by
    rintro c hc rfl
    exact hcs hc
  have hend (cs : List Char) : ∀ c ∈ ('\n' :: cs).head?, c = '\n' := by
    rintro c ⟨⟩
    rfl
  -- The first line feed of the text is the end of the first line.
  induction lines generalizing lines' with
  | nil =>
    cases lines' with
    | nil => rfl
    | cons l' ls' => exact absurd heq.symm (textOf_cons_ne l' ls')
  | cons l ls ih =>
    cases lines' with
    | nil => exact absurd heq (textOf_cons_ne l ls)
    | cons l' ls' =>
      obtain ⟨hl, hls⟩ := List.forall_mem_cons.1 h
      obtain ⟨hl', hls'⟩ := List.forall_mem_cons.1 h'
      have hlist := congrArg String.toList heq
      rw [toList_textOf_cons, toList_textOf_cons] at hlist
      obtain ⟨hline, hrest⟩ := append_injective_of_border (hborder hl) (hborder hl')
        (hend _) (hend _) hlist
      rw [String.toList_inj.1 hline, ih hls hls' (String.toList_inj.1 (List.cons.inj hrest).2)]

lemma indented_injective {indent indent' depth depth' : Int} {line line' : String}
    (h : ∀ c ∈ line.toList.head?, c ≠ ' ') (h' : ∀ c ∈ line'.toList.head?, c ≠ ' ')
    (heq : indented indent depth line = indented indent' depth' line') : line = line' := by
  have hblanks (k : Nat) : ∀ c ∈ List.replicate k ' ', ¬ c ≠ ' ' := fun c hc =>
    not_not.2 (List.eq_of_mem_replicate hc)
  have hlist := congrArg String.toList heq
  rw [indented, indented, String.toList_append, String.toList_append, String.toList_ofList,
    String.toList_ofList] at hlist
  exact String.toList_inj.1
    (append_injective_of_border (hblanks _) (hblanks _) h h' hlist).2

end Printer

lemma Event.Proper.head_line {e : Event} (h : e.Proper) :
    ∀ c ∈ (e.topic ++ e.details).toList.head?, c ≠ ' ' := by
  obtain ⟨c, cs, hcs, hc⟩ := h.isTopic.begins
  rw [String.toList_append, hcs]
  rintro d ⟨⟩
  exact hc

namespace Printer

variable {indent indent' depth depth' : Int} {e : Event} {es es' : List Event}

lemma rendered_cons (he : e.Proper) : rendered indent depth (e :: es) =
    indented indent (depthAt depth e) (e.topic ++ e.details) ::
      rendered indent (depthAfter depth e) es := by
  rw [rendered, he.line?_eq]
  rfl

lemma length_rendered (hes : ∀ e ∈ es, e.Proper) (indent depth : Int) :
    (rendered indent depth es).length = es.length := by
  induction es generalizing depth with
  | nil => rfl
  | cons e es ih =>
    obtain ⟨he, hes⟩ := List.forall_mem_cons.1 hes
    rw [rendered_cons he, List.length_cons, ih hes, List.length_cons]

theorem isPrintable_rendered (hes : ∀ e ∈ es, e.Proper) (indent depth : Int) :
    ∀ line ∈ rendered indent depth es, ∀ c ∈ line.toList, Text.isPrintable c := by
  induction es generalizing depth with
  | nil => exact List.forall_mem_nil _
  | cons e es ih =>
    obtain ⟨he, hes⟩ := List.forall_mem_cons.1 hes
    have hblanks (k : Nat) : ∀ c ∈ List.replicate k ' ', Text.isPrintable c := by
      intro c hc
      rw [List.eq_of_mem_replicate hc]
      decide
    rw [rendered_cons he]
    refine List.forall_mem_cons.2 ⟨?_, ih hes _⟩
    rw [indented, String.toList_append, String.toList_append, String.toList_ofList]
    simp only [List.forall_mem_append]
    exact ⟨hblanks _, he.isTopic.printable, he.isPrintable_details⟩

theorem rendered_injective (hes : ∀ e ∈ es, e.Proper) (hes' : ∀ e ∈ es', e.Proper)
    (h : rendered indent depth es = rendered indent' depth' es') :
    es.map Event.withoutColumn = es'.map Event.withoutColumn := by
  induction es generalizing es' depth depth' with
  | nil =>
    have hlength := congrArg List.length h
    rw [length_rendered hes, length_rendered hes'] at hlength
    rw [List.length_eq_zero_iff.1 hlength.symm]
  | cons e es ih =>
    cases es' with
    | nil =>
      have hlength := congrArg List.length h
      rw [length_rendered hes, length_rendered hes'] at hlength
      cases hlength
    | cons e' es' =>
      obtain ⟨he, hes⟩ := List.forall_mem_cons.1 hes
      obtain ⟨he', hes'⟩ := List.forall_mem_cons.1 hes'
      rw [rendered_cons he, rendered_cons he'] at h
      obtain ⟨hline, hrest⟩ := List.cons.inj h
      have hlines := indented_injective he.head_line he'.head_line hline
      have hevent : e.line? = e'.line? := by rw [he.line?_eq, he'.line?_eq, hlines]
      rw [List.map_cons, List.map_cons, (he.line?_eq_iff he').1 hevent, ih hes hes' hrest]

lemma rendered_withoutColumn (indent depth : Int) (es : List Event) :
    rendered indent depth (es.map Event.withoutColumn) = rendered indent depth es := by
  induction es generalizing depth with
  | nil => rfl
  | cons e es ih =>
    rw [List.map_cons, rendered, Event.line?_withoutColumn, ih]
    rfl

lemma not_mem_rendered (hes : ∀ e ∈ es, e.Proper) (indent depth : Int) :
    ∀ line ∈ rendered indent depth es, '\n' ∉ line.toList := by
  intro line hline hmem
  exact absurd (isPrintable_rendered hes indent depth line hline _ hmem) (by decide)

/-- **A printout tells just the events**, without the columns of tokens. -/
theorem textOf_rendered_eq_iff (hes : ∀ e ∈ es, e.Proper) (hes' : ∀ e ∈ es', e.Proper) :
    textOf (rendered indent depth es) = textOf (rendered indent depth es') ↔
      es.map Event.withoutColumn = es'.map Event.withoutColumn := by
  constructor
  · intro h
    have hlines := textOf_injective (not_mem_rendered hes indent depth)
      (not_mem_rendered hes' indent depth) h
    exact rendered_injective hes hes' hlines
  · intro h
    rw [← rendered_withoutColumn indent depth es, h, rendered_withoutColumn]

end Printer

/-- What is made of a program over the tokens: a trace keeps the events, and a printer writes the
lines. -/
structure Prints (ts : List Token) (label : String) (indent : Int) (es : List Event)
    (lines : List String) : Prop where
  traced : ∃ tr, tr.events = es ∧
    ((fresh ts ⟨label, .trace .empty⟩).parseProgram Grammar.language).2.sink.trace? = some tr
  printed : ∃ p, p.lines = lines ∧
    ((fresh ts ⟨label, .printer (.ofIndent indent)⟩).parseProgram
      Grammar.language).2.sink.printer? = some p

lemma exists_prints (ts : List Token) (label : String) (indent : Int) :
    ∃ es, (∀ e ∈ es, e.Proper) ∧ Prints ts label indent es (rendered indent 0 es) := by
  let s := fresh ts ⟨label, .trace .empty⟩
  let t := fresh ts ⟨label, .printer (.ofIndent indent)⟩
  have hpeers : t.Peers s := ⟨⟨rfl, rfl⟩, rfl, rfl, rfl⟩
  obtain ⟨es, names, notes, htelling, -, hall⟩ :=
    perform_tells Grammar.language_plain s (c := .program) rfl
  obtain ⟨-, hs⟩ := hall s (.refl s)
  obtain ⟨-, ht⟩ := hall t hpeers
  have htrace : s.sink.trace? = some .empty := rfl
  have hprinter : t.sink.printer? = some (.ofIndent indent) := rfl
  obtain ⟨tr, htr, hevents⟩ := hs.sink.trace? htelling.proper htrace
  obtain ⟨p, hp, -, hlines⟩ := ht.sink.printer? hprinter
  exact ⟨es, htelling.proper, ⟨tr, hevents, htr⟩, p, hlines, hp⟩

/-- **A printed derivation loses nothing** but the columns of tokens. Whatever comes of two
programs, over tokens with any values and on any lines, and whatever the indent: there is one line
for each event, all of it printable, and the texts are equal if and only if the events are, up to
columns. -/
theorem printouts_tell_events (ts ts' : List Token) (label label' : String) (indent : Int) :
    ∃ es es' lines lines', Prints ts label indent es lines ∧ Prints ts' label' indent es' lines' ∧
      lines.length = es.length ∧ (∀ line ∈ lines, ∀ c ∈ line.toList, Text.isPrintable c) ∧
      (textOf lines = textOf lines' ↔
        es.map Event.withoutColumn = es'.map Event.withoutColumn) := by
  obtain ⟨es, hes, hprints⟩ := exists_prints ts label indent
  obtain ⟨es', hes', hprints'⟩ := exists_prints ts' label' indent
  exact ⟨es, es', _, _, hprints, hprints', length_rendered hes indent 0,
    isPrintable_rendered hes indent 0, textOf_rendered_eq_iff hes hes'⟩

end StatementLang
