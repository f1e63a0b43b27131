import Mathlib.Logic.Function.Iterate
import StatementLang.Proofs.Bystanders

/-!
Three renderings of one sequence of events.

A trace keeps the events that a session tells of, a printer writes a line for each of them, and the
log has an entry for each. Calls tell of one sequence of events whatever they come to, and whoever
observes them (`Session.performAll_tells`), so the lines and the entries can be read off the trace
(`observers_render_one_sequence`).
-/

namespace StatementLang

open Printer Session

/-- The line of the log for an event, when the token ahead stands on a line. -/
def Event.logLine? (line : Int) (e : Event) : Option String :=
  match e.tag with
  | .enter => some s!"DEBUG descent.descent_parser: entering {e.name} at line {line}"
  | .leave => some s!"DEBUG descent.descent_parser: leaving {e.name}"
  | .terminal => e.token.map fun t =>
    s!"DEBUG descent.descent_parser: accepted {t.kind.code} {Text.quoted t.value} at line {t.line}"
  | .custom _ => none

namespace Event

lemma Proper.line?_isSome {e : Event} (h : e.Proper) : e.line?.isSome := by
  cases h with
  | enter | leave => rfl
  | @token t x h => simp [line?, ofToken, h, Kind.name?, Kind.symbol?]

lemma Proper.exists_record {e : Event} (h : e.Proper) (logName : String) (line : Int) :
    ∃ r, e.record? line = some r ∧ r.origin = .derivation ∧
      e.logLine? line = some (r.line logName) := by
  cases h with
  | enter n => exact ⟨_, rfl, rfl, rfl⟩
  | leave n => exact ⟨_, rfl, rfl, rfl⟩
  | token h => exact ⟨_, rfl, rfl, rfl⟩

end Event

lemma Printer.rendered_eq_mapIdx {es : List Event} (hes : ∀ e ∈ es, e.Proper) (indent depth : Int) :
    (rendered indent depth es).map some = es.mapIdx fun i e =>
      e.line?.map (indented indent (depthAt (depth + Event.depth (es.take i)) e)) := by
  induction es generalizing depth with
  | nil => rfl
  | cons e es ih =>
    obtain ⟨he, hes⟩ := List.forall_mem_cons.1 hes
    obtain ⟨line, hline⟩ := Option.isSome_iff_exists.1 he.line?_isSome
    have hdepth (i : Nat) : depth + Event.depth ((e :: es).take (i + 1)) =
        depthAfter depth e + Event.depth (es.take i) := by
      rw [List.take_succ_cons, Event.depth_cons e (es.take i), depthAfter_eq, Int.add_assoc]
    rw [rendered, hline, List.map_append, ih hes, List.mapIdx_cons]
    simp only [hdepth]
    simp [hline]

namespace Session

variable {s t : Session} {es fs : List Event}

/-- The token ahead of a session once some of those before it have been taken. -/
def aheadAfter (s : Session) (taken : Nat) : Token := (pull^[taken] s).lookahead

lemma Abreast.iterate_pull (h : t.Abreast s) (n : Nat) :
    (Session.pull^[n] t).Abreast (Session.pull^[n] s) := by
  induction n generalizing s t with
  | zero => exact h
  | succ n ih =>
    rw [Function.iterate_succ_apply, Function.iterate_succ_apply]
    exact ih h.pull

lemma replay_abreast (hes : ∀ e ∈ es, e.Proper) (s : Session) :
    (s.replay es).Abreast (pull^[(Trace.terminals es).length] s) := by
  induction es generalizing s with
  | nil => exact .refl s
  | cons e es ih =>
    obtain ⟨he, hes⟩ := List.forall_mem_cons.1 hes
    have hhear : (s.hear e).Abreast s := ⟨rfl, rfl⟩
    refine (ih hes (s.happen e)).trans ?_
    cases he with
    | enter | leave => exact hhear.iterate_pull _
    | token => exact hhear.pull.iterate_pull _

lemma records_eq_mapIdx (hes : ∀ e ∈ es, e.Proper) (s : Session) (logName : String) :
    (s.records es).map (fun r => some (r.line logName)) = es.mapIdx fun i e =>
      e.logLine? (s.aheadAfter (Trace.terminals (es.take i)).length).line := by
  have hreplay : (s.records es).map (fun r => some (r.line logName)) =
      es.mapIdx fun i e => e.logLine? (s.replay (es.take i)).lookahead.line := by
    induction es generalizing s with
    | nil => rfl
    | cons e es ih =>
      obtain ⟨he, hes⟩ := List.forall_mem_cons.1 hes
      obtain ⟨r, hr, -, hline⟩ := he.exists_record logName s.lookahead.line
      rw [records, hr, List.map_append, ih hes, List.mapIdx_cons]
      simp [hline]
  rw [hreplay]
  congr
  funext i e
  rw [(replay_abreast (fun e he => hes e (List.mem_of_mem_take he)) s).lookahead_eq]
  rfl

/-! ### Calls one after the other -/

def derived (s : Session) : List Record := s.log.filter (·.origin = .derivation)

/-- One or more calls have told the session of just these events since it was `s`. -/
structure Tells (s : Session) (es : List Event) (s' : Session) : Prop where
  abreast : s'.Abreast (s.replay es)
  sink : s'.sink.Holds (s.sink.tellAll es)
  derived_eq : s'.derived = s.derived ++ s.records es

lemma derived_of_start {source : TokenSource} {sink : Sink} (h : start source sink = .ok s) :
    s.derived = [] := by
  rcases hn : source.next with ⟨e | u, source'⟩ <;> rw [start, hn] at h
  · cases h
  · cases h
    rfl

lemma Tells.refl (s : Session) : s.Tells [] s := ⟨.refl s, .inl rfl, (List.append_nil _).symm⟩

lemma Tells.trans {s' s'' : Session} (h : s.Tells es s') (h' : s'.Tells fs s'') :
    s.Tells (es ++ fs) s'' where
  abreast := by
    rw [replay_append]
    exact h'.abreast.trans (h.abreast.replay fs)
  sink := by
    rw [Sink.tellAll_append]
    exact h'.sink.trans (h.sink.tellAll fs)
  derived_eq := by
    rw [h'.derived_eq, h.derived_eq, records_append, h.abreast.records_eq, List.append_assoc]

lemma origin_of_mem_records (hes : ∀ e ∈ es, e.Proper) (s : Session) :
    ∀ r ∈ s.records es, r.origin = .derivation := by
  induction es generalizing s with
  | nil => exact List.forall_mem_nil _
  | cons e es ih =>
    obtain ⟨he, hes⟩ := List.forall_mem_cons.1 hes
    obtain ⟨r, hr, horigin, -⟩ := he.exists_record "" s.lookahead.line
    rw [records, hr]
    exact List.forall_mem_cons.2 ⟨horigin, ih hes _⟩

lemma Becomes.tells {names : List String} {notes : List Record} {s' : Session}
    (h : s.Becomes es notes s') (htelling : Telling es names notes) : s.Tells es s' where
  abreast := h.abreast
  sink := h.sink
  derived_eq := by
    have hrecords : (s.records es).filter (·.origin = .derivation) = s.records es :=
      List.filter_eq_self.2 fun r hr =>
        decide_eq_true (origin_of_mem_records htelling.proper s r hr)
    have hnotes : notes.filter (·.origin = .derivation) = [] :=
      List.filter_eq_nil_iff.2 fun r hr => by
        rw [htelling.report r hr]
        decide
    rw [derived, h.log_eq, List.filter_append, List.filter_append, hrecords, hnotes,
      List.append_nil, derived]

/-- **Calls tell all peers of one sequence of events**, which opens a phrase before it is left. -/
theorem performAll_tells {g : Grammar} (hg : g.Plain) (s : Session) {calls : List Call}
    (hcalls : ∀ c ∈ calls, c.IsNative) :
    ∃ es names, (∀ e ∈ es, e.Proper) ∧ Event.openAfter [] es = some names ∧
      ∀ t : Session, t.Peers s →
        t.Tells es (performAll g t calls) ∧
          (performAll g t calls).Peers (performAll g s calls) := by
  induction calls generalizing s with
  | nil =>
    exact ⟨[], [], List.forall_mem_nil _, Event.openAfter_nil _, fun t h => ⟨.refl t, h⟩⟩
  | cons c calls ih =>
    obtain ⟨hc, hcalls⟩ := List.forall_mem_cons.1 hcalls
    obtain ⟨es, names, notes, htelling, -, hall⟩ := perform_tells hg s hc
    obtain ⟨fs, names', hfs, hopen, hall'⟩ := ih (s.perform g c).2 hcalls
    refine ⟨es ++ fs, names' ++ names, fun e he => ?_, ?_, fun t h => ?_⟩
    · exact (List.mem_append.1 he).elim (htelling.proper e) (hfs e)
    · -- what the first call leaves open stays open further out
      rw [Event.openAfter_append, htelling.openAfter_eq, Option.bind_some]
      exact (Event.openAfter_frame hopen names).1
    · obtain ⟨htells, hpeers⟩ := hall' _ (h.perform hg hc).2
      exact ⟨((hall t h).2.tells htelling).trans htells, hpeers⟩

end Session

/-! ### The three renderings -/

lemma Printer.depthAt_leave {inner : List Event} (h : Event.openAfter [] inner = some [])
    (before : List Event) (n : String) :
    depthAt (Event.depth (before ++ .ofEnter n :: inner)) (.ofLeave n) =
      depthAt (Event.depth before) (.ofEnter n) := by
  have henter : Event.depth [.ofEnter n] = 1 := rfl
  have hinner : Event.depth inner = 0 := Event.depth_eq_length h
  have hleave (depth : Int) : depthAt depth (.ofLeave n) = depth - 1 := rfl
  have hsame (depth : Int) : depthAt depth (.ofEnter n) = depth := rfl
  rw [hleave, hsame, Event.depth_append, Event.depth_cons, henter, hinner]
  omega

/-- **Trace, printer and log render one sequence of events**, whatever is asked of a session, again
and again, and whatever comes of it. The printer writes one line for each event of the trace. It
stands as deep as more phrases were entered than left before it, and the line for the end of a
phrase as deep as the one for its beginning. The log has one entry for each event, on the line of
the token that was ahead. The depth of the printer is never negative, and a call adds to it the
number of phrases that it leaves open. -/
theorem observers_render_one_sequence (source : TokenSource) (label : String) (indent : Int)
    {calls : List Call} (hcalls : ∀ c ∈ calls, c.IsNative) {s : Session}
    (hs : start source ⟨label, .trace .empty⟩ = .ok s) :
    ∃ t s' t' tr p, start source ⟨label, .printer (.ofIndent indent)⟩ = .ok t ∧
      performAll Grammar.language s calls = s' ∧ performAll Grammar.language t calls = t' ∧
      s'.sink.trace? = some tr ∧ t'.sink.printer? = some p ∧
      p.lines.map some = (tr.events.mapIdx fun i e =>
        e.line?.map (indented indent (depthAt (Event.depth (tr.events.take i)) e))) ∧
      (∀ before n inner after,
        tr.events = before ++ .ofEnter n :: (inner ++ .ofLeave n :: after) →
        Event.openAfter [] inner = some [] →
        depthAt (Event.depth (before ++ .ofEnter n :: inner)) (.ofLeave n) =
          depthAt (Event.depth before) (.ofEnter n)) ∧
      t'.log = s'.log ∧
      s'.derived.map (fun r => some (r.line Record.defaultCommandName)) =
        (tr.events.mapIdx fun i e =>
          e.logLine? (s.aheadAfter (Trace.terminals (tr.events.take i)).length).line) ∧
      (∀ k, ∃ q, Sink.tellAll ⟨label, .printer (.ofIndent indent)⟩ (tr.events.take k) =
        ⟨label, .printer q⟩ ∧ q.depth = Event.depth (tr.events.take k) ∧ 0 ≤ q.depth) ∧
      p.depth = Event.depth tr.events ∧
      ∀ c : Call, c.IsNative → ∃ tr₁ p₁ names,
        (s'.perform Grammar.language c).2.sink.trace? = some tr₁ ∧
        (t'.perform Grammar.language c).2.sink.printer? = some p₁ ∧
        Event.openAfter [] (tr₁.eventsSince tr) = some names ∧
        p₁.depth = p.depth + names.length ∧
        ((∃ r, (t'.perform Grammar.language c).1 = .ok r) → names = []) := by
  obtain ⟨t, ht, hpeers⟩ := exists_peer hs (.printer (.ofIndent indent))
  obtain ⟨es, names, hes, hopen, hall⟩ := performAll_tells Grammar.language_plain s hcalls
  obtain ⟨htold, hpeers'⟩ := hall t hpeers
  obtain ⟨hstold, -⟩ := hall s (.refl s)
  obtain ⟨tr, htr, rfl⟩ := hstold.sink.trace? hes (congrArg Sink.trace? (of_start hs).1)
  obtain ⟨p, hp, hdepth, hlines⟩ := htold.sink.printer? (congrArg Sink.printer? (of_start ht).1)
  refine ⟨t, _, _, tr, p, ht, rfl, rfl, htr, hp, ?_, fun before n inner _ _ h =>
    depthAt_leave h before n, hpeers'.log_eq, ?_, fun k => ?_, ?_, fun c hc => ?_⟩
  · -- the lines of the printer
    have hrendered := rendered_eq_mapIdx hes indent 0
    simp only [Int.zero_add] at hrendered
    rw [hlines]
    exact hrendered
  · -- the entries of the log
    rw [hstold.derived_eq, derived_of_start hs]
    exact records_eq_mapIdx hes s _
  · obtain ⟨q, hq, hqdepth, -⟩ :=
      Sink.tellAll_printer label (.ofIndent indent) (tr.events.take k)
    have hqdepth' : q.depth = Event.depth (tr.events.take k) :=
      hqdepth.trans (Int.zero_add _)
    exact ⟨q, hq, hqdepth', hqdepth' ▸ Event.depth_take_nonneg hopen k⟩
  · exact hdepth.trans (Int.zero_add _)
  · -- one more call
    obtain ⟨fs, left, notes, htelling, hend, hall'⟩ :=
      perform_tells Grammar.language_plain (performAll Grammar.language s calls) hc
    obtain ⟨hresult, htbecomes⟩ := hall' _ hpeers'
    obtain ⟨-, hsbecomes⟩ := hall' _ (.refl _)
    obtain ⟨tr₁, htr₁, hevents⟩ := hsbecomes.sink.trace? htelling.proper htr
    obtain ⟨p₁, hp₁, hdepth₁, -⟩ := htbecomes.sink.printer? hp
    refine ⟨tr₁, p₁, left, htr₁, hp₁, ?_, ?_, hresult ▸ hend⟩
    · rw [Trace.eventsSince, hevents, List.drop_left]
      exact htelling.openAfter_eq
    · rw [hdepth₁, Event.depth_eq_length htelling.openAfter_eq]

theorem observers_render_one_sequence_brokenAssignment :
    let calls : List Call := [.program, .phrase .factor]
    let s := fresh brokenAssignment ⟨"", .trace .empty⟩
    let t := fresh brokenAssignment ⟨"", .printer (.ofIndent 3)⟩
    (∀ c ∈ calls, c.IsNative) ∧ start (.ofTokens brokenAssignment) ⟨"", .trace .empty⟩ = .ok s ∧
      ∃ tr p, (performAll Grammar.language s calls).sink.trace? = some tr ∧
        (performAll Grammar.language t calls).sink.printer? = some p ∧
        p.lines.map some = tr.events.mapIdx fun i e =>
          e.line?.map (indented 3 (depthAt (Event.depth (tr.events.take i)) e)) := by
  have hcalls : ∀ c ∈ [Call.program, .phrase .factor], c.IsNative := by decide
  have hs := start_ofTokens brokenAssignment ⟨"", .trace .empty⟩
  obtain ⟨t, s', t', tr, p, ht, rfl, rfl, htr, hp, hlines, -⟩ :=
    observers_render_one_sequence (.ofTokens brokenAssignment) "" 3 hcalls hs
  obtain rfl := Except.ok.inj ((start_ofTokens _ _).symm.trans ht)
  exact ⟨hcalls, hs, tr, p, htr, hp, hlines⟩

end StatementLang
