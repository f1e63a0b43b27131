import StatementLang.Proofs.Completion
import StatementLang.Proofs.Recognition

/-!
Errors are found at the first token that no program goes on with.

Up to the token that is rejected, the events are those of a program that is accepted; and with the
kind of that token added, no program that is accepted begins so.
-/

namespace StatementLang

open StatementLang.Symbol StatementLang.Nonterminal TokenQueue Session

namespace TokenQueue

variable {ts : List Token} {i k : Nat}

lemma padded_of_lt (h : i < ts.length) : padded ts i = ts[i] := by
  rw [padded, List.getElem?_eq_getElem h, Option.getD_some]

lemma isEnd_padded_length (ts : List Token) : (padded ts ts.length).IsEnd := by
  rw [padded, List.getElem?_eq_none (Nat.le_refl _), Option.getD_none]
  exact isEnd_closingOf ts

lemma firstOf_eq_take (h : k ≤ ts.length) : firstOf ts k = ts.take k := by
  refine List.ext_getElem (by simp [h]) fun i hi hi' => ?_
  have hget : (firstOf ts k)[i] = padded ts i := by simp [firstOf]
  rw [length_firstOf] at hi
  rw [hget, padded_of_lt (by omega), List.getElem_take]

lemma firstOf_length (ts : List Token) : firstOf ts ts.length = ts := by
  rw [firstOf_eq_take (Nat.le_refl _), List.take_length]

lemma take_firstOf {j : Nat} (hj : j ≤ k) : (firstOf ts k).take j = firstOf ts j := by
  rw [firstOf, ← List.map_take, List.take_range, Nat.min_eq_left hj, firstOf]

lemma kinds_of_le {us : List Token} {j : Nat} (hj : j ≤ k)
    (h : (firstOf us k).map Token.kind = (firstOf ts k).map Token.kind) :
    (firstOf us j).map Token.kind = (firstOf ts j).map Token.kind := by
  rw [← take_firstOf hj, ← take_firstOf hj, List.map_take, List.map_take, h]

end TokenQueue

/-! ### Accepted programs -/

/-- A fresh session over the tokens derives the program. -/
def Accepted (sink : Sink) (us : List Token) : Prop :=
  ((fresh us sink).parseProgram Grammar.language).1 = .ok ()

variable {sink : Sink} {ts us : List Token} {es : List Event} {k : Nat}

lemma Accepted.exists_course (h : Accepted sink us) :
    ∃ m es, Course Grammar.language (padded us m).kind programGoals (firstOf us m) es [] := by
  obtain ⟨k, hk, hend⟩ := parseProgram_ok_iff.1 h
  exact ⟨k + 1, exists_course_of_spell hk hend⟩

/-- The course of a program over the tokens, with the events `es`, comes to goals that reject the
token after the first `k`. -/
def RejectedAt (ts : List Token) (k : Nat) (es : List Event) : Prop :=
  ∃ gs' x, Course Grammar.language (padded ts k).kind programGoals (firstOf ts k) es gs' ∧
    Grammar.language.Rejects (padded ts k).kind gs' x

lemma exists_rejectedAt {e : GrammarError} {s' : Session}
    (h : (fresh ts sink).parseProgram Grammar.language = (.error (.grammar e), s')) :
    ∃ k es, RejectedAt ts k es ∧ e.root.token = some (padded ts k) ∧
      ∀ tr, sink.trace? = some tr → s'.sink.trace? = some (tr.recordAll es) := by
  obtain ⟨k, es, gs', x, hc, hr, htoken, -, -, htrace⟩ := exists_rejects h
  exact ⟨k, es, ⟨gs', x, hc, hr⟩, htoken, htrace⟩

namespace RejectedAt

lemma terminals_eq (h : RejectedAt ts k es) : Trace.terminals es = firstOf ts k := by
  obtain ⟨gs', x, hc, -⟩ := h
  exact hc.terminals_eq

/-- **The events up to a rejection** are the first of those of an accepted program. -/
theorem exists_accepted (h : RejectedAt ts k es) (sink : Sink) :
    ∃ us fs s', (fresh (firstOf ts k ++ us) sink).parseProgram Grammar.language = (.ok (), s') ∧
      ∀ tr, sink.trace? = some tr → s'.sink.trace? = some (tr.recordAll (es ++ fs)).succeed := by
  obtain ⟨gs', x, hc, hr⟩ := h
  have hfits : Fits [endOfFile] programGoals := by decide
  obtain ⟨us, fs, hc'⟩ := hc.exists_extension hfits hr
  have hend := isEnd_padded_length (firstOf ts k ++ us)
  rw [← firstOf_length (firstOf ts k ++ us)] at hc'
  rw [← show _ = Kind.known endOfFile from hend] at hc'
  obtain ⟨s', hs', htrace⟩ := parseProgram_of_course sink hc'
  exact ⟨us, fs, s', hs', htrace⟩

theorem not_accepted (h : RejectedAt ts k es)
    (hk : (firstOf us (k + 1)).map Token.kind = (firstOf ts (k + 1)).map Token.kind) :
    ¬ Accepted sink us := by
  intro hacc
  obtain ⟨gs', x, hc, hr⟩ := h
  obtain ⟨m, fs, hm⟩ := hacc.exists_course
  obtain ⟨es', hes'⟩ := hc.of_kinds (kinds_of_le (Nat.le_succ k) hk)
  have hnext : (padded ts k).kind = (padded us k).kind := by
    rw [firstOf_succ, firstOf_succ, List.map_append, List.map_append] at hk
    exact (List.singleton_inj.1 (List.append_inj' hk rfl).2).symm
  rw [hnext] at hes' hr
  obtain ⟨-, -, rfl⟩ := course_unique hes' (.rejected hr) hm .reached
  cases hr

end RejectedAt

/-! ### Replaced tokens -/

namespace TokenQueue

/-- The tokens with `t` in place `i`. A shorter list is first continued up to there. -/
def replaced (ts : List Token) (i : Nat) (t : Token) : List Token :=
  firstOf ts i ++ t :: ts.drop (i + 1)

variable {ts : List Token} {i j : Nat} {t : Token}

lemma replaced_of_lt (h : i < ts.length) : replaced ts i t = ts.set i t := by
  rw [replaced, firstOf_eq_take (Nat.le_of_lt h), List.set_eq_take_append_cons_drop, if_pos h]

lemma firstOf_replaced (hj : j ≤ i) : firstOf (replaced ts i t) j = firstOf ts j := by
  have hlen : j ≤ (firstOf ts i).length := by rwa [length_firstOf]
  rw [firstOf_eq_take (by rw [replaced, List.length_append]; omega), replaced,
    List.take_append_of_le_length hlen, take_firstOf hj]

lemma padded_replaced : padded (replaced ts i t) i = t := by
  have hget : (replaced ts i t)[i]? = some t := by
    rw [replaced, List.getElem?_append_right (Nat.le_of_eq (length_firstOf ts i)), length_firstOf,
      Nat.sub_self, List.getElem?_cons_zero]
  rw [padded, hget, Option.getD_some]

lemma kinds_replaced : (firstOf (replaced ts i t) (i + 1)).map Token.kind =
    (firstOf ts i).map Token.kind ++ [t.kind] := by
  rw [firstOf_succ, firstOf_replaced (Nat.le_refl i), padded_replaced, List.map_append,
    List.map_singleton]

end TokenQueue

section
variable {i : Nat} {t : Token}

lemma eq_of_rejectedAt_replaced (hacc : Accepted sink us)
    (ht : ∀ vs, Accepted sink vs → (firstOf vs (i + 1)).map Token.kind ≠
      (firstOf us i).map Token.kind ++ [t.kind])
    (h : RejectedAt (replaced us i t) k es) : k = i := by
  rcases Nat.lt_trichotomy k i with hlt | heq | hgt
  · -- the tokens up to there are still those of the accepted program
    refine absurd hacc (h.not_accepted ?_)
    rw [firstOf_replaced hlt]
  · exact heq
  · -- a program that is accepted has the token there
    obtain ⟨vs, fs, s', hs', -⟩ := h.exists_accepted sink
    refine absurd ?_ (ht (firstOf (replaced us i t) k ++ vs) (by rw [Accepted, hs']))
    have hlen : i + 1 ≤ (firstOf (replaced us i t) k).length := by rw [length_firstOf]; omega
    rw [firstOf_eq_take (by rw [List.length_append]; omega), List.take_append_of_le_length hlen,
      take_firstOf hgt, kinds_replaced]

end

/-- **Errors are found early.** When a program is rejected after some terminals, its events are the
first of those of an accepted program; the root of the error is about the token after the
terminals, and no accepted program begins with the kinds of the terminals and of that token. So if
a token of an accepted program is replaced by one of a kind that cannot occur there, it is the root
of the error. -/
theorem errors_are_found_early (sink : Sink) {tr : Trace} (htr : sink.trace? = some tr) :
    (∀ ts e s', (fresh ts sink).parseProgram Grammar.language = (.error (.grammar e), s') →
      ∃ k tr', s'.sink.trace? = some tr' ∧ Trace.terminals (tr'.eventsSince tr) = firstOf ts k ∧
        (∃ us s'' tr'', (fresh us sink).parseProgram Grammar.language = (.ok (), s'') ∧
          s''.sink.trace? = some tr'' ∧ tr'.eventsSince tr <+: tr''.eventsSince tr) ∧
        e.root.token = some (padded ts k) ∧
        ∀ us, Accepted sink us →
          (firstOf us (k + 1)).map Token.kind ≠ (firstOf ts (k + 1)).map Token.kind) ∧
    ∀ us i t, Accepted sink us →
      (∀ vs, Accepted sink vs → (firstOf vs (i + 1)).map Token.kind ≠
        (firstOf us i).map Token.kind ++ [t.kind]) →
      ∃ e s' tr', (fresh (replaced us i t) sink).parseProgram Grammar.language =
          (.error (.grammar e), s') ∧
        s'.sink.trace? = some tr' ∧ (Trace.terminals (tr'.eventsSince tr)).length = i ∧
        e.root.token = some t := by
  refine ⟨fun ts e s' h => ?_, fun us i t hacc ht => ?_⟩
  · obtain ⟨k, es, hrej, htoken, htrace⟩ := exists_rejectedAt h
    refine ⟨k, _, htrace tr htr, ?_, ?_, htoken, fun us hacc hk => hrej.not_accepted hk hacc⟩
    · rw [Trace.eventsSince_recordAll]
      exact hrej.terminals_eq
    · obtain ⟨us, fs, s'', hs'', htrace''⟩ := hrej.exists_accepted sink
      refine ⟨_, s'', _, hs'', htrace'' tr htr, ?_⟩
      rw [Trace.eventsSince_succeed, Trace.eventsSince_recordAll, Trace.eventsSince_recordAll]
      exact List.prefix_append es fs
  · have hne : ¬ Accepted sink (replaced us i t) := fun h => ht _ h kinds_replaced
    obtain ⟨e, he⟩ := parseProgram_error hne
    obtain ⟨k, es, hrej, htoken, htrace⟩ := exists_rejectedAt (Prod.ext he rfl)
    obtain rfl := eq_of_rejectedAt_replaced hacc ht hrej
    refine ⟨e, _, _, Prod.ext he rfl, htrace tr htr, ?_, ?_⟩
    · rw [Trace.eventsSince_recordAll, hrej.terminals_eq, length_firstOf]
    · rw [htoken, padded_replaced]

lemma ne_of_accepted {t : Token} (ht : t.kind ≠ .known kwBegin) (h : Accepted sink us) :
    (firstOf us 1).map Token.kind ≠ [t.kind] := by
  intro hk
  have hrej : RejectedAt [t] 0 [.ofEnter statementPart.name] :=
    ⟨_, _, .phrase (.refl _), .token ht _⟩
  exact hrej.not_accepted hk h

theorem errors_are_found_early_brokenAssignment :
    (∃ e s' k tr', (fresh brokenAssignment ⟨"", .trace .empty⟩).parseProgram Grammar.language =
        (.error (.grammar e), s') ∧
      s'.sink.trace? = some tr' ∧
      Trace.terminals (tr'.eventsSince .empty) = firstOf brokenAssignment k ∧
      e.root.token = some (padded brokenAssignment k)) ∧
    ∃ e s', (fresh (assigningString.set 0 (.atEnd 1 0)) ⟨"", .trace .empty⟩).parseProgram
        Grammar.language = (.error (.grammar e), s') ∧ e.root.token = some (.atEnd 1 0) := by
  obtain ⟨hreject, hreplace⟩ := errors_are_found_early ⟨"", .trace .empty⟩ rfl
  obtain ⟨e, s', h⟩ := parseProgram_brokenAssignment ⟨"", .trace .empty⟩
  obtain ⟨k, tr', htr', hterminals, -, htoken, -⟩ := hreject _ e s' h
  obtain ⟨s'', hacc⟩ := parseProgram_assigningString ⟨"", .trace .empty⟩
  obtain ⟨e', s₁, -, h', -, -, htoken'⟩ := hreplace assigningString 0 (.atEnd 1 0)
    (congrArg Prod.fst hacc) fun vs hvs => ne_of_accepted (by decide) hvs
  rw [replaced_of_lt (by decide)] at h'
  exact ⟨⟨e, s', k, tr', h, htr', hterminals, htoken⟩, e', s₁, h', htoken'⟩

end StatementLang
