import StatementLang.Proofs.Accounting
import StatementLang.Proofs.EarlyErrors
import StatementLang.Proofs.Nesting
import StatementLang.Proofs.Separator

/-!
The work of a derivation is linear in the tokens before the end of the text.

Between two tokens a derivation enters at most three phrases. What goals may still enter before the
next token is their potential: an entered phrase lowers it, and a token raises it to three at most.
So the phrases entered are never more than three for each token that has been taken, and the one
that the derivation begins with (`Course.entered_le`). The end of the text is taken last, if at
all, so no derivation goes on behind it; every phrase that is left has been entered, and no choice
follows another. All that a run does is bounded by this (`work_is_linear`).
-/

namespace StatementLang

open StatementLang.Symbol StatementLang.Nonterminal StatementLang.Choice TokenQueue Session

/-- How many phrases are entered up to the first token of a phrase. -/
def Nonterminal.depth : Nonterminal → Nat
  | statementList | expression => 3
  | statement | term => 2
  | _ => 1

/-- How many phrases a choice enters at most up to its first token. -/
def Choice.depth : Choice → Nat
  | afterSeparator | assignedValue => 3
  | statementForm | arguments => 1
  | _ => 0

namespace Goal

/-- How many phrases may be entered before the next token if those behind the goal are `d`. The end
of the text does not count as a token, because it can be taken again and again. -/
def enters : Goal → Nat → Nat
  | token x, d => if x = endOfFile then d else 0
  | phrase n, _ => n.depth
  | leave _, d => d
  | choice c, d => max c.depth (if c.optional then d else 0)

/-- How many phrases goals may enter before the next token. -/
def entersAhead (gs : List Goal) : Nat := gs.foldr enters 0

lemma enters_le (a : Goal) {d : Nat} (hd : d ≤ 3) : a.enters d ≤ 3 := by
  cases a with
  | token x =>
    simp only [enters]
    split <;> omega
  | phrase n =>
    have hn : n.depth ≤ 3 := by cases n <;> decide
    exact hn
  | leave n => exact hd
  | choice c =>
    have hc : c.depth ≤ 3 := by cases c <;> decide
    simp only [enters]
    split <;> omega

theorem entersAhead_le (gs : List Goal) : entersAhead gs ≤ 3 := by
  induction gs with
  | nil => exact Nat.zero_le 3
  | cons a gs ih => exact enters_le a ih

lemma entersAhead_expand (n : Nonterminal) (gs : List Goal) :
    entersAhead (Grammar.language.body n ++ .leave n :: gs) + 1 =
      entersAhead (.phrase n :: gs) := by
  cases n <;> rfl

lemma entersAhead_chosen {c : Choice} {k : Kind} {new : List Goal}
    (hs : Grammar.language.select c k = .ok new) (gs : List Goal) :
    entersAhead (new ++ gs) ≤ entersAhead (.choice c :: gs) := by
  have hall : ∀ new ∈ c.taken ++ c.bypass, ∀ d ≤ 3,
      new.foldr enters d ≤ (Goal.choice c).enters d := by
    cases c <;> decide
  have hd := hall new (mem_of_select hs) (entersAhead gs) (entersAhead_le gs)
  rwa [entersAhead, List.foldr_append]

end Goal

open Goal

namespace Course

variable {g : Grammar} {k : Kind} {gs gs' : List Goal} {ts : List Token} {es : List Event}

theorem entered_le (h : Course Grammar.language k gs ts es gs') :
    (Trace.entered es).length + entersAhead gs' ≤
      3 * ts.countP (¬ ·.IsEnd) + entersAhead gs := by
  induction h with
  | refl => simp [Trace.entered]
  | @token x t gs gs' ts es ht _ ih =>
    have hes : Trace.entered (.ofToken t :: es) = Trace.entered es := rfl
    rw [hes]
    by_cases hx : x = endOfFile
    · have hend : t.IsEnd := ht.trans (congrArg _ hx)
      have hgs : entersAhead (.token x :: gs) = entersAhead gs := if_pos hx
      rw [List.countP_cons_of_neg (by simpa using hend), hgs]
      exact ih
    · have hend : ¬ t.IsEnd := fun hend => hx (Kind.known.inj (ht.symm.trans hend))
      have hle := entersAhead_le gs
      rw [List.countP_cons_of_pos (by simpa using hend)]
      omega
  | @phrase n gs gs' ts es _ ih =>
    have hes : (Trace.entered (.ofEnter n.name :: es)).length = (Trace.entered es).length + 1 := rfl
    have hgs := entersAhead_expand n gs
    omega
  | leave _ ih => exact ih
  | choice hs _ ih => exact ih.trans (Nat.add_le_add_left (entersAhead_chosen hs _) _)

theorem exists_left (hg : g.Plain) (h : Course g k gs ts es gs') :
    ∃ left, es.length = ts.length + (Trace.entered es).length + left ∧
      (openPhrases gs').length + left = (openPhrases gs).length + (Trace.entered es).length := by
  induction h with
  | refl => exact ⟨0, rfl, rfl⟩
  | @token x t gs gs' ts es _ _ ih =>
    obtain ⟨left, hes, hopen⟩ := ih
    have hentered : Trace.entered (.ofToken t :: es) = Trace.entered es := rfl
    refine ⟨left, ?_, by rwa [hentered]⟩
    rw [hentered, List.length_cons, List.length_cons]
    omega
  | @phrase n gs gs' ts es _ ih =>
    obtain ⟨left, hes, hopen⟩ := ih
    have hentered : (Trace.entered (.ofEnter n.name :: es)).length =
        (Trace.entered es).length + 1 := rfl
    have hleave : (openPhrases (.leave n :: gs)).length = (openPhrases gs).length + 1 := rfl
    have hphrase : openPhrases (.phrase n :: gs) = openPhrases gs := rfl
    rw [openPhrases_append, hg.body, List.nil_append] at hopen
    refine ⟨left, ?_, by rw [hphrase]; omega⟩
    rw [hentered, List.length_cons]
    omega
  | @leave n gs gs' ts es _ ih =>
    obtain ⟨left, hes, hopen⟩ := ih
    have hentered : Trace.entered (.ofLeave n.name :: es) = Trace.entered es := rfl
    have hleave : (openPhrases (.leave n :: gs)).length = (openPhrases gs).length + 1 := rfl
    refine ⟨left + 1, ?_, by rw [hentered]; omega⟩
    rw [hentered, List.length_cons]
    omega
  | choice hs _ ih =>
    rw [openPhrases_append, hg.select _ _ _ hs, List.nil_append] at ih
    exact ih

end Course

namespace Goal

def isChoice : Goal → Bool
  | choice _ => true
  | _ => false

/-- A goal may stand right before another: the end of the text comes last, and a choice is not made
right behind another. -/
def Leads (a b : Goal) : Prop :=
  a ≠ .token endOfFile ∧ (a.isChoice = true → b.isChoice = false)

instance : DecidableRel Leads := fun _ _ => inferInstanceAs (Decidable (_ ∧ _))

end Goal

abbrev Orderly (gs : List Goal) : Prop := gs.IsChain Goal.Leads

lemma orderly_expand {n : Nonterminal} {gs : List Goal} (h : Orderly (.phrase n :: gs)) :
    Orderly (Grammar.language.body n ++ .leave n :: gs) := by
  have hbody : Orderly (Grammar.language.body n) ∧
      ∀ a ∈ (Grammar.language.body n).getLast?, Leads a (.leave n) := by
    cases n <;> decide
  have hleave : Orderly (.leave n :: gs) :=
    List.isChain_cons.2 ⟨fun b _ => ⟨nofun, nofun⟩, h.tail⟩
  refine List.isChain_append.2 ⟨hbody.1, hleave, ?_⟩
  rintro a ha b ⟨⟩
  exact hbody.2 a ha

lemma orderly_chosen {c : Choice} {k : Kind} {new gs : List Goal}
    (hs : Grammar.language.select c k = .ok new) (h : Orderly (.choice c :: gs)) :
    Orderly (new ++ gs) := by
  have hall : ∀ new ∈ c.taken ++ c.bypass,
      Orderly new ∧ ∀ a ∈ new.getLast?, a ≠ .token endOfFile := by
    cases c <;> decide
  obtain ⟨hnew, hlast⟩ := hall new (mem_of_select hs)
  obtain ⟨hhead, htail⟩ := List.isChain_cons.1 h
  exact List.isChain_append.2
    ⟨hnew, htail, fun a ha b hb => ⟨hlast a ha, fun _ => (hhead b hb).2 rfl⟩⟩

theorem Course.not_isEnd_of_mem {k : Kind} {gs gs' : List Goal} {ts : List Token}
    {es : List Event} (h : Course Grammar.language k gs ts es gs') (ho : Orderly gs) :
    ∀ t ∈ ts.dropLast, ¬ t.IsEnd := by
  induction h with
  | refl => exact List.forall_mem_nil _
  | @token x t gs gs' ts es ht h ih =>
    rcases ts with _ | ⟨u, us⟩
    · exact List.forall_mem_nil _
    · -- what takes the other tokens stands behind this one
      obtain ⟨b, gs, rfl⟩ : ∃ b rest, gs = b :: rest := by
        cases h <;> exact ⟨_, _, rfl⟩
      have hx : Goal.token x ≠ .token endOfFile := ((List.isChain_cons.1 ho).1 b rfl).1
      have hend : ¬ t.IsEnd := fun hend => hx (congrArg _ (Kind.known.inj (ht.symm.trans hend)))
      exact List.forall_mem_cons.2 ⟨hend, ih ho.tail⟩
  | phrase _ ih => exact ih (orderly_expand ho)
  | leave _ ih => exact ih ho.tail
  | choice hs _ ih => exact ih (orderly_chosen hs ho)

namespace TokenQueue

def tokensBeforeEnd (ts : List Token) : Nat := ts.findIdx (·.IsEnd)

variable {ts : List Token} {m : Nat}

lemma isEnd_padded_tokensBeforeEnd (ts : List Token) :
    (padded ts (tokensBeforeEnd ts)).IsEnd := by
  by_cases h : tokensBeforeEnd ts < ts.length
  · rw [padded_of_lt h]
    exact of_decide_eq_true (List.findIdx_getElem (w := h))
  · have hle : tokensBeforeEnd ts ≤ ts.length := List.findIdx_le_length
    rw [Nat.le_antisymm hle (Nat.not_lt.1 h)]
    exact isEnd_padded_length ts

lemma countP_firstOf_le (hm : m ≤ tokensBeforeEnd ts + 1) :
    (firstOf ts m).countP (¬ ·.IsEnd) ≤ tokensBeforeEnd ts := by
  rcases Nat.lt_or_eq_of_le hm with hlt | rfl
  · have hle := List.countP_le_length (p := fun t => decide (¬ Token.IsEnd t)) (l := firstOf ts m)
    rw [length_firstOf] at hle
    omega
  · have hend := isEnd_padded_tokensBeforeEnd ts
    have hle := List.countP_le_length (p := fun t => decide (¬ Token.IsEnd t))
      (l := firstOf ts (tokensBeforeEnd ts))
    rw [length_firstOf] at hle
    rw [firstOf_succ, List.countP_append, List.countP_cons_of_neg (by simpa using hend)]
    exact hle

end TokenQueue

lemma Course.length_le {k : Kind} {gs gs' : List Goal} {ts : List Token} {es : List Event} {m : Nat}
    (h : Course Grammar.language k gs (firstOf ts m) es gs') (ho : Orderly gs) :
    m ≤ tokensBeforeEnd ts + 1 := by
  by_contra hlt
  obtain ⟨d, rfl⟩ : ∃ d, m = tokensBeforeEnd ts + 1 + d + 1 :=
    ⟨m - tokensBeforeEnd ts - 2, by omega⟩
  have hmem : padded ts (tokensBeforeEnd ts) ∈ firstOf ts (tokensBeforeEnd ts + 1 + d) :=
    List.mem_map_of_mem (List.mem_range.2 (by omega))
  have hnot := h.not_isEnd_of_mem ho
  rw [firstOf_succ, List.dropLast_concat] at hnot
  exact hnot _ hmem (isEnd_padded_tokensBeforeEnd ts)

/-! ### Steps that are counted -/

namespace Session

/-- The configurations that a run comes to in a number of steps. -/
inductive ReachesIn (g : Grammar) : Nat → Config → Config → Prop
  | refl (c : Config) : ReachesIn g 0 c c
  | head {n : Nat} {c c' c'' : Config} (h : Step g c c') (hr : ReachesIn g n c' c'') :
    ReachesIn g (n + 1) c c''

lemma ReachesIn.reaches {g : Grammar} {n : Nat} {c c' : Config} (h : ReachesIn g n c c') :
    Reaches g c c' := by
  induction h with
  | refl => exact .refl
  | head h _ ih => exact ih.head h

end Session

def Goal.choiceAhead (gs : List Goal) : Nat := (gs.head?.any isChoice).toNat

lemma Goal.choiceAhead_le (gs : List Goal) : choiceAhead gs ≤ 1 := Bool.toNat_le _

lemma choiceAhead_chosen {c : Choice} {k : Kind} {new gs : List Goal}
    (hs : Grammar.language.select c k = .ok new) (h : Orderly (.choice c :: gs)) :
    choiceAhead (new ++ gs) = 0 := by
  have hall : ∀ new ∈ c.taken ++ c.bypass, ∀ a ∈ new.head?, a.isChoice = false := by
    cases c <;> decide
  rcases new with _ | ⟨a, new⟩
  · rcases gs with _ | ⟨b, gs⟩
    · rfl
    · have hb : b.isChoice = false := ((List.isChain_cons.1 h).1 b rfl).2 rfl
      exact congrArg Bool.toNat hb
  · exact congrArg Bool.toNat (hall _ (mem_of_select hs) a rfl)

/-- **Two steps at most for each event**, because a choice is not made right behind another. -/
theorem Session.ReachesIn.le_events {n : Nat} {c c' : Config}
    (h : ReachesIn Grammar.language n c c') (ho : Orderly c.1) {tr : Trace}
    (htr : c.2.sink.trace? = some tr) :
    ∃ es, c'.2.sink.trace? = some (tr.recordAll es) ∧
      n + choiceAhead c'.1 ≤ 2 * es.length + choiceAhead c.1 := by
  -- A choice makes no event, but what follows it is not another choice, and pays for it.
  induction h generalizing tr with
  | refl c => exact ⟨[], htr, by simp⟩
  | @head n c c' c'' hstep _ ih =>
    have hahead := choiceAhead_le c'.1
    cases hstep with
    | token h =>
      obtain ⟨es, hes, hle⟩ := ih ho.tail ((Advances.token h).2.trace? htr)
      refine ⟨_ :: es, hes, ?_⟩
      rw [List.length_cons]
      omega
    | phrase n gs s =>
      obtain ⟨es, hes, hle⟩ := ih (orderly_expand ho) ((Advances.enter s n).trace? htr)
      refine ⟨_ :: es, hes, ?_⟩
      rw [List.length_cons]
      omega
    | leave n gs s =>
      obtain ⟨es, hes, hle⟩ := ih ho.tail ((Advances.leave s n).trace? htr)
      refine ⟨_ :: es, hes, ?_⟩
      rw [List.length_cons]
      omega
    | @choice c gs new s h =>
      obtain ⟨es, hes, hle⟩ := ih (orderly_chosen h ho) htr
      have hnew : choiceAhead (new ++ gs) = 0 := choiceAhead_chosen h ho
      have hc : choiceAhead (.choice c :: gs) = 1 := rfl
      refine ⟨es, hes, ?_⟩
      dsimp only at hle ⊢
      omega

/-! ### Whole derivations -/

section

variable {c : Call} {gs : List Goal} (hc : c.wholeGoals = some gs)
include hc

lemma orderly_wholeGoals : Orderly gs := by
  cases c <;> cases hc <;> decide

lemma entersAhead_wholeGoals : entersAhead gs = 1 := by
  cases c <;> cases hc <;> rfl

lemma openPhrases_wholeGoals : openPhrases gs = [] := by
  cases c <;> cases hc <;> rfl

lemma choiceAhead_wholeGoals : choiceAhead gs = 0 := by
  cases c <;> cases hc <;> rfl

lemma Course.exists_openAfter {k : Kind} {gs' : List Goal} {ts : List Token} {es fs : List Event}
    (h : Course Grammar.language k gs ts es gs') (hfs : fs <+: es) :
    ∃ names, Event.openAfter [] fs = some names ∧ names.length ≤ (Trace.entered fs).length ∧
      (Trace.entered fs).length ≤ 3 * (Trace.terminals fs).countP (¬ ·.IsEnd) + 1 := by
  obtain ⟨es', rfl⟩ := hfs
  obtain ⟨us, vs, gs₁, -, hfirst, -⟩ := h.split
  have hopen := hfirst.openAfter Grammar.language_plain
  have hentered := hfirst.entered_le
  obtain ⟨left, -, hleft⟩ := hfirst.exists_left Grammar.language_plain
  rw [openPhrases_wholeGoals hc] at hopen hleft
  rw [entersAhead_wholeGoals hc] at hentered
  refine ⟨_, hopen, ?_, ?_⟩
  · rw [List.length_map]
    exact Nat.le_of_add_right_le (hleft.le.trans (Nat.zero_add _).le)
  · rw [hfirst.terminals_eq]
    exact Nat.le_of_add_right_le hentered

lemma Course.length_events_le {k : Kind} {gs' : List Goal} {ts : List Token} {es : List Event}
    {m : Nat} (h : Course Grammar.language k gs (firstOf ts m) es gs') :
    es.length ≤ 7 * tokensBeforeEnd ts + 3 := by
  have hm := h.length_le (orderly_wholeGoals hc)
  have hcount := countP_firstOf_le hm
  have hentered := h.entered_le
  obtain ⟨left, hes, hleft⟩ := h.exists_left Grammar.language_plain
  rw [entersAhead_wholeGoals hc] at hentered
  rw [openPhrases_wholeGoals hc] at hleft
  rw [length_firstOf] at hes
  simp only [List.length_nil] at hleft
  omega

lemma steps_le {ts : List Token} {label : String} {n : Nat} {c' : Config}
    (h : ReachesIn Grammar.language n (gs, (fresh ts ⟨label, .trace .empty⟩).claimed) c') :
    n ≤ 14 * tokensBeforeEnd ts + 6 := by
  obtain ⟨gs', s'⟩ := c'
  obtain ⟨es, hes, hle⟩ := h.le_events (orderly_wholeGoals hc) rfl
  obtain ⟨us, fs, hcourse, ha⟩ := h.reaches.course
  -- both are the events that the trace tells of
  obtain rfl : es = fs := by
    have hfs : s'.sink.trace? = some (Trace.empty.recordAll fs) := ha.trace? rfl
    have htr := congrArg Trace.events (Option.some.inj (hes.symm.trans hfs))
    rwa [Trace.events_recordAll, Trace.events_recordAll, List.append_right_inj] at htr
  rw [(faces_fresh ts _).claimed.taken ha] at hcourse
  have hlen := hcourse.length_events_le hc
  have hahead : choiceAhead gs = 0 := choiceAhead_wholeGoals hc
  simp only [hahead] at hle
  omega

lemma exists_traverses {s : Session} {tr : Trace} (hs : s.used = false)
    (htr : s.sink.trace? = some tr) :
    ∃ us es, Traverses Grammar.language gs s.claimed us es (run Grammar.language gs s.claimed).2 ∧
      (s.perform Grammar.language c).2.source =
        (run Grammar.language gs s.claimed).2.source ∧
      ∃ tr', (s.perform Grammar.language c).2.sink.trace? = some tr' ∧
        tr'.events = tr.events ++ es := by
  obtain ⟨us, es, h⟩ := run_traverses (g := Grammar.language) gs s.claimed
  have hresembles := (perform_whole (g := Grammar.language) hs hc).2
  obtain ⟨next, gs', hcourse⟩ := h.course
  have hrun : (run Grammar.language gs s.claimed).2.sink.trace? = some (tr.recordAll es) := by
    rw [h.sink_eq]
    exact hcourse.trace?_tellAll htr
  obtain ⟨tr', htr', hevents⟩ := hresembles.trace _ hrun
  exact ⟨us, es, h, hresembles.source_eq, tr', htr', by rw [hevents, Trace.events_recordAll]⟩

end

lemma TokenSource.countP_answers_le {source : TokenSource} {us : List Token}
    (h : us.map .ok = (List.range us.length).map source.answer) :
    us.countP (¬ ·.IsEnd) ≤ source.remaining := by
  induction us generalizing source with
  | nil => exact Nat.zero_le _
  | cons u us ih =>
    rw [List.length_cons, List.range_succ_eq_map, List.map_cons, List.map_cons, List.map_map,
      List.cons.injEq] at h
    have hnext : source.next.1 = .ok u := h.1.symm
    have hrest : us.countP (¬ ·.IsEnd) ≤ source.next.2.remaining := ih h.2
    by_cases hu : u.IsEnd
    · rw [List.countP_cons_of_neg (by simpa using hu)]
      exact hrest.trans source.remaining_next_le
    · have hlt := TokenSource.remaining_next hnext hu
      rw [List.countP_cons_of_pos (by simpa using hu)]
      omega

/-- **A whole derivation is linear work.** Over tokens, it comes to its end after some steps for
each token before the end of the text, and asks for no token but the one behind that. Whenever it
is looked at, also on its way to an error, the phrases that have been entered are no more than
three for each token taken and the first one. So over a text that is not empty, no more phrases are
ever open than four for each character. -/
theorem work_is_linear (label : String) {c : Call} {gs : List Goal}
    (hc : c.wholeGoals = some gs) :
    (∀ ts, ∃ s s' q tr, start (.ofTokens ts) ⟨label, .trace .empty⟩ = .ok s ∧
      Ends Grammar.language (gs, s.claimed) (run Grammar.language gs s.claimed) ∧
      (∀ n d, ReachesIn Grammar.language n (gs, s.claimed) d →
        n ≤ 14 * tokensBeforeEnd ts + 6) ∧
      s.perform Grammar.language c =
        ((run Grammar.language gs s.claimed).1.map (fun _ => none), s') ∧
      s'.source = .queue q ∧ q.asked ≤ tokensBeforeEnd ts + 2 ∧ s'.sink.trace? = some tr ∧
      ∀ es, es <+: tr.events → ∃ names, Event.openAfter [] es = some names ∧
        names.length ≤ (Trace.entered es).length ∧
        (Trace.entered es).length ≤ 3 * (Trace.terminals es).length + 1) ∧
    ∀ text s, text ≠ "" → start (.ofText text) ⟨label, .trace .empty⟩ = .ok s →
      ∃ tr, (s.perform Grammar.language c).2.sink.trace? = some tr ∧
        ∀ es, es <+: tr.events → ∃ names, Event.openAfter [] es = some names ∧
          names.length ≤ 4 * text.length := by
  refine ⟨fun ts => ?_, fun text s htext hs => ?_⟩
  · -- Over tokens, one is asked for at the start and one more for each that is taken.
    obtain ⟨us, es, h, hsource, tr, htr, hevents⟩ :=
      exists_traverses hc (s := fresh ts ⟨label, .trace .empty⟩) rfl rfl
    obtain ⟨next, gs', hcourse⟩ := h.course
    have hus := (faces_fresh ts ⟨label, .trace .empty⟩).claimed.eq_firstOf h.taken
    obtain ⟨q, hq, hasked⟩ :=
      exists_after_queue (TokenQueue.ofList ts).next.2 us.length
    refine ⟨_, _, q, tr, start_ofTokens ts _, run_ends _ _, fun n d => steps_le hc,
      Prod.ext (perform_whole rfl hc).1 rfl, hsource.trans (h.source_eq.trans hq), ?_, htr,
      fun fs hfs => ?_⟩
    · have hlen : us.length ≤ tokensBeforeEnd ts + 1 :=
        Course.length_le (hus ▸ hcourse) (orderly_wholeGoals hc)
      have hfirst : (TokenQueue.ofList ts).next.2.asked = 1 := by
        unfold TokenQueue.next
        split <;> rfl
      omega
    · obtain ⟨names, hnames, hopen, hentered⟩ := hcourse.exists_openAfter hc (hevents ▸ hfs)
      have hcount := List.countP_le_length (p := fun t => decide (¬ Token.IsEnd t))
        (l := Trace.terminals fs)
      exact ⟨names, hnames, hopen, by omega⟩
  · -- Over a text, every token but the last takes up a character.
    obtain ⟨hsink, hused, hupcoming⟩ := of_start hs
    have hempty : s.sink.trace? = some .empty := by rw [hsink]; rfl
    obtain ⟨us, es, h, -, tr, htr, hevents⟩ := exists_traverses hc hused hempty
    obtain ⟨next, gs', hcourse⟩ := h.course
    refine ⟨tr, htr, fun fs hfs => ?_⟩
    rw [hevents] at hfs
    obtain ⟨names, hnames, hopen, hentered⟩ := hcourse.exists_openAfter hc hfs
    have htaken : us.map .ok = (List.range us.length).map (TokenSource.ofText text).answer := by
      rw [h.taken]
      exact List.map_congr_left fun i _ => (s.upcoming_claimed i).trans (hupcoming i)
    have hcount : us.countP (¬ ·.IsEnd) ≤ text.toList.length :=
      TokenSource.countP_answers_le htaken
    have hterminals : Trace.terminals fs <+: us :=
      hcourse.terminals_eq ▸ (hfs.filter _).filterMap _
    have hle := hterminals.sublist.countP_le (p := fun t => decide (¬ Token.IsEnd t))
    have hpos : text.length ≠ 0 := fun h0 => htext (String.length_eq_zero_iff.1 h0)
    rw [String.length_toList] at hcount
    exact ⟨names, hnames, by omega⟩

theorem work_is_linear_brokenAssignment :
    (∀ n d, ReachesIn Grammar.language n
      (programGoals, (fresh brokenAssignment ⟨"", .trace .empty⟩).claimed) d → n ≤ 48) ∧
    ∃ s tr, start (.ofText "x") ⟨"", .trace .empty⟩ = .ok s ∧
      (s.perform Grammar.language .program).2.sink.trace? = some tr ∧
      ∃ names, Event.openAfter [] tr.events = some names ∧ names.length ≤ 4 := by
  obtain ⟨htokens, htext⟩ := work_is_linear "" (c := .program) rfl
  constructor
  · obtain ⟨s, s', q, tr, hs, -, hsteps, -⟩ := htokens brokenAssignment
    obtain rfl := Except.ok.inj ((start_ofTokens _ _).symm.trans hs)
    have hcount : tokensBeforeEnd brokenAssignment = 3 := by decide
    rwa [hcount] at hsteps
  · obtain ⟨s, hs⟩ : ∃ s, start (.ofText "x") ⟨"", .trace .empty⟩ = .ok s := ⟨_, rfl⟩
    obtain ⟨tr, htr, hopen⟩ := htext "x" s (by decide) hs
    exact ⟨s, tr, hs, htr, hopen tr.events (List.prefix_refl _)⟩

end StatementLang
