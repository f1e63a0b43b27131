import StatementLang.Proofs.Nesting
import StatementLang.Proofs.Traversal

/-!
Observers of a derivation.

A run is the replay of its events, with what it has noted at its end: which events these are does
not depend on the sink, so that sessions with the same tokens before them and with sinks of one
label come to the same (`run_replays`). A printer that is told of events writes a line for each,
indented by the phrases that are open (`Sink.tellAll_printer`).
-/

namespace StatementLang

namespace Session

def noteAll (s : Session) (rs : List Record) : Session :=
  { s with latest := rs.reverse ++ s.latest }

@[simp] lemma log_noteAll (s : Session) (rs : List Record) :
    (s.noteAll rs).log = s.log ++ rs := by
  simp [log, noteAll]

/-- **A run replays a course.** What a session has before it settles what a run comes to, which
events it replays, and what else it notes. -/
theorem run_replays (g : Grammar) (gs : List Goal) (s : Session) :
    ∃ next us es gs' notes, Course g next gs us es gs' ∧
      ((run g gs s).1 = .ok () → gs' = []) ∧ (∀ r ∈ notes, r.origin = .report) ∧
      ∀ t : Session, t.upcoming = s.upcoming → t.sink.label = s.sink.label →
        run g gs t = ((run g gs s).1, (t.replay es).noteAll notes) := by
  have hsame {t : Session} {ts : List Token} (h : t.upcoming = s.upcoming) (hs : s.HasAhead ts) :
      t.HasAhead ts := fun i u hu => (congrFun h i).trans (hs i u hu)
  have ho := run_outcome (g := g) gs s
  generalize hr : run g gs s = r at ho
  cases ho with
  | @reached us es s' hc ha =>
    refine ⟨_, us, es, [], [], hc, fun _ => rfl, List.forall_mem_nil _, fun t h _ => ?_⟩
    obtain ⟨t₁, ht, -, -, rfl⟩ := run_of_reached hc (hsame h ha.hasAhead)
    exact ht
  | @rejected us es gs' s' x hc ha hreject =>
    refine ⟨_, us, es, gs', [.violation (s'.sink.violation s'.lookahead x.text).message], hc,
      nofun, fun r hr => List.mem_singleton.1 hr ▸ rfl, fun t h hlabel => ?_⟩
    obtain ⟨t₁, ht, hlook, ha', ht₁⟩ := run_of_rejects hc hreject (hsame h ha.hasAhead)
    have hlabels : t₁.sink.label = s'.sink.label := by rw [ha'.label_eq, ha.label_eq, hlabel]
    rw [ht, rejection_congr hlook hlabels, reject, Sink.violation_of_label hlabels, hlook, ← ht₁]
    rfl
  | @fault us es gs' s' s₁ y e hc ha hk he =>
    have hfault : s.upcoming (us.length + 1) = .error e := (ha.upcoming_eq 1).symm.trans he
    have hcourse : Course g s'.lookahead.kind gs (us ++ [s'.lookahead])
        (es ++ [.ofToken s'.lookahead]) gs' := Course.trans hc (.token hk (.refl gs'))
    refine ⟨_, _, _, gs', [], hcourse, nofun, List.forall_mem_nil _, fun t h _ => ?_⟩
    exact run_of_fault hc hk (hsame h ha.hasAhead) ((congrFun h _).trans hfault)

/-- The sessions are at the same place of one source. -/
structure Abreast (t s : Session) : Prop where
  source_eq : t.source = s.source
  lookahead_eq : t.lookahead = s.lookahead

/-- The entries of the log for events that happen to a session. -/
def records (s : Session) : List Event → List Record
  | [] => []
  | e :: es => (e.record? s.lookahead.line).toList ++ (s.happen e).records es

variable {s t : Session}

namespace Abreast

lemma refl (s : Session) : s.Abreast s := ⟨rfl, rfl⟩

lemma symm (h : t.Abreast s) : s.Abreast t := ⟨h.source_eq.symm, h.lookahead_eq.symm⟩

lemma trans {u : Session} (h : t.Abreast s) (h' : s.Abreast u) : t.Abreast u :=
  ⟨h.source_eq.trans h'.source_eq, h.lookahead_eq.trans h'.lookahead_eq⟩

lemma upcoming_eq (h : t.Abreast s) : t.upcoming = s.upcoming := by
  funext i
  cases i with
  | zero => exact congrArg Except.ok h.lookahead_eq
  | succ i => exact congrArg (·.answer i) h.source_eq

lemma pull (h : t.Abreast s) : t.pull.Abreast s.pull := by
  unfold Session.pull
  rw [h.source_eq]
  split
  · exact ⟨rfl, rfl⟩
  · exact ⟨rfl, h.lookahead_eq⟩

lemma happen (h : t.Abreast s) (e : Event) : (t.happen e).Abreast (s.happen e) := by
  have hhear : (t.hear e).Abreast (s.hear e) := ⟨h.source_eq, h.lookahead_eq⟩
  unfold Session.happen
  split
  · exact hhear.pull
  · exact hhear

lemma replay (h : t.Abreast s) (es : List Event) : (t.replay es).Abreast (s.replay es) := by
  induction es generalizing s t with
  | nil => exact h
  | cons e es ih => exact ih (h.happen e)

lemma records_eq (h : t.Abreast s) (es : List Event) : t.records es = s.records es := by
  induction es generalizing s t with
  | nil => rfl
  | cons e es ih => rw [records, records, h.lookahead_eq, ih (h.happen e)]

end Abreast

lemma log_happen (s : Session) (e : Event) :
    (s.happen e).log = s.log ++ (e.record? s.lookahead.line).toList := by
  have hhear : (s.hear e).log = s.log ++ (e.record? s.lookahead.line).toList := by
    rw [log, log, hear, List.reverse_append]
    rcases e.record? s.lookahead.line with _ | r <;> rfl
  have hpull (t : Session) : t.pull.log = t.log := by
    unfold pull
    split <;> rfl
  unfold happen
  split
  · rw [hpull, hhear]
  · exact hhear

lemma log_replay (s : Session) (es : List Event) : (s.replay es).log = s.log ++ s.records es := by
  induction es generalizing s with
  | nil => exact (List.append_nil _).symm
  | cons e es ih => rw [replay_cons, ih, log_happen, records, List.append_assoc]

lemma records_append (s : Session) (es fs : List Event) :
    s.records (es ++ fs) = s.records es ++ (s.replay es).records fs := by
  induction es generalizing s with
  | nil => rfl
  | cons e es ih => rw [List.cons_append, records, ih, records, replay_cons, List.append_assoc]

end Session

/-! ### What a printer writes -/

/-- The line for an event, without the blanks before it. A token without a name has none. -/
def Event.line? (e : Event) : Option String :=
  match e.tag with
  | .enter => some ("-> " ++ e.name)
  | .leave => some ("<- " ++ e.name)
  | .terminal => do
    let t ← e.token
    let name ← t.kind.name?
    return name ++ " " ++ Text.quoted t.value ++ " (line " ++ toString t.line ++ ")"
  | .custom _ => none

namespace Printer

def indented (indent depth : Int) (line : String) : String :=
  String.ofList (List.replicate (indent * depth).toNat ' ') ++ line

/-- How deep the line for an event stands. The end of a phrase is as deep as its beginning. -/
def depthAt (depth : Int) (e : Event) : Int := if e.tag = .leave then depth - 1 else depth

def depthAfter (depth : Int) (e : Event) : Int :=
  if e.tag = .enter then depth + 1 else depthAt depth e

lemma depthAfter_eq (depth : Int) (e : Event) : depthAfter depth e = depth + Event.depth [e] := by
  obtain ⟨tag, name, token⟩ := e
  cases tag with
  | enter | leave => rfl
  | terminal | custom => exact (Int.add_zero depth).symm

/-- The lines for events, from a depth on. -/
def rendered (indent : Int) : Int → List Event → List String
  | _, [] => []
  | depth, e :: es =>
    (e.line?.map (indented indent (depthAt depth e))).toList ++
      rendered indent (depthAfter depth e) es

@[simp] lemma lines_write (p : Printer) (line : String) :
    (p.write line).lines = p.lines ++ [indented p.indent p.depth line] := by
  simp [lines, write, indented]

end Printer

namespace Sink

open Printer

lemma tell_printer (label : String) (p : Printer) (e : Event) :
    ∃ p', tell ⟨label, .printer p⟩ e = ⟨label, .printer p'⟩ ∧ p'.indent = p.indent ∧
      p'.depth = depthAfter p.depth e ∧
      p'.lines = p.lines ++ (e.line?.map (indented p.indent (depthAt p.depth e))).toList := by
  obtain ⟨tag, name, token⟩ := e
  cases tag with
  | enter => exact ⟨p.enter name, rfl, rfl, rfl, lines_write p _⟩
  | leave => exact ⟨p.leave name, rfl, rfl, rfl, lines_write { p with depth := p.depth - 1 } _⟩
  | custom => exact ⟨p, by cases token <;> rfl, rfl, rfl, (List.append_nil _).symm⟩
  | terminal =>
    rcases token with _ | t
    · exact ⟨p, rfl, rfl, rfl, (List.append_nil _).symm⟩
    · rcases hname : t.kind.name? with _ | kindName
      · refine ⟨p, ?_, rfl, rfl, ?_⟩
        · simp [tell, token, Kind.name, hname, Except.toOption]
        · simp [Event.line?, hname]
      · refine ⟨p.token kindName t, ?_, rfl, rfl, ?_⟩
        · simp [tell, token, Kind.name, hname, Except.toOption]
        · have hline : Event.line? ⟨.terminal, name, some t⟩ = some (kindName ++ " " ++
              Text.quoted t.value ++ " (line " ++ toString t.line ++ ")") := by
            simp only [Event.line?, Option.bind_eq_bind, Option.bind_some, hname]
            rfl
          rw [hline]
          exact lines_write p _

theorem tellAll_printer (label : String) (p : Printer) (es : List Event) :
    ∃ p', tellAll ⟨label, .printer p⟩ es = ⟨label, .printer p'⟩ ∧
      p'.depth = p.depth + Event.depth es ∧
      p'.lines = p.lines ++ rendered p.indent p.depth es := by
  induction es generalizing p with
  | nil => exact ⟨p, rfl, (Int.add_zero _).symm, (List.append_nil _).symm⟩
  | cons e es ih =>
    obtain ⟨p₁, htell, hindent, hdepth, hlines⟩ := tell_printer label p e
    obtain ⟨p', htellAll, hdepth', hlines'⟩ := ih p₁
    refine ⟨p', by rw [tellAll_cons, htell, htellAll], ?_, ?_⟩
    · rw [hdepth', hdepth, depthAfter_eq, Event.depth_cons e es, Int.add_assoc]
    · rw [hlines', hlines, hindent, hdepth, rendered, List.append_assoc]

end Sink

/-! ### What a sink has been told -/

namespace Sink

@[simp] lemma label_tell (s : Sink) (e : Event) : (s.tell e).label = s.label := by
  unfold tell
  split
  · exact label_enter s _
  · exact label_leave s _
  · next t _ _ =>
    rcases h : s.token t with _ | s'
    · rfl
    · exact label_token h
  · rfl

@[simp] lemma label_tellAll (s : Sink) (es : List Event) : (s.tellAll es).label = s.label := by
  induction es generalizing s with
  | nil => rfl
  | cons e es ih => rw [tellAll_cons, ih, label_tell]

lemma tell_succeed (s : Sink) (e : Event) : s.succeed.tell e = (s.tell e).succeed := by
  obtain ⟨label, _ | tr | p⟩ := s
  · obtain ⟨tag, name, _ | t⟩ := e <;> cases tag <;> rfl
  · obtain ⟨tag, name, _ | t⟩ := e <;> cases tag <;> rfl
  · obtain ⟨p', hp', -⟩ := tell_printer label p e
    have hsucceed (p : Printer) : succeed ⟨label, .printer p⟩ = ⟨label, .printer p⟩ := rfl
    rw [hsucceed, hp', hsucceed]

lemma tellAll_succeed (s : Sink) (es : List Event) :
    s.succeed.tellAll es = (s.tellAll es).succeed := by
  induction es generalizing s with
  | nil => rfl
  | cons e es ih => rw [tellAll_cons, tell_succeed, ih, tellAll_cons]

lemma eq_of_printer? {sink : Sink} {p : Printer} (h : sink.printer? = some p) :
    sink = ⟨sink.label, .printer p⟩ := by
  obtain ⟨label, _ | _ | _⟩ := sink <;> cases h
  rfl

/-- The sink has been told just that, and perhaps of the success. -/
def Holds (sink told : Sink) : Prop := sink = told ∨ sink = told.succeed

namespace Holds

variable {sink told : Sink} {es : List Event}

lemma label_eq (h : sink.Holds told) : sink.label = told.label := by
  rcases h with rfl | rfl
  · rfl
  · exact label_succeed told

lemma trans {told' : Sink} (h : sink.Holds told) (h' : told.Holds told') : sink.Holds told' := by
  rcases h with rfl | rfl
  · exact h'
  · rcases h' with rfl | rfl
    · exact .inr rfl
    · refine .inr ?_
      obtain ⟨label, _ | _ | _⟩ := told' <;> rfl

lemma succeed (h : sink.Holds told) : sink.succeed.Holds told := trans (.inr rfl) h

lemma tellAll (h : sink.Holds told) (es : List Event) :
    (sink.tellAll es).Holds (told.tellAll es) := by
  rcases h with rfl | rfl
  · exact .inl rfl
  · exact .inr (tellAll_succeed told es)

lemma trace? (h : sink.Holds (told.tellAll es)) (hes : ∀ e ∈ es, e.Proper) {tr : Trace}
    (htr : told.trace? = some tr) :
    ∃ tr', sink.trace? = some tr' ∧ tr'.events = tr.events ++ es := by
  rw [eq_of_trace? htr, tellAll_trace hes] at h
  rcases h with rfl | rfl
  · exact ⟨_, rfl, Trace.events_recordAll tr es⟩
  · exact ⟨_, rfl, Trace.events_recordAll tr es⟩

lemma printer? (h : sink.Holds (told.tellAll es)) {p : Printer} (hp : told.printer? = some p) :
    ∃ p', sink.printer? = some p' ∧ p'.depth = p.depth + Event.depth es ∧
      p'.lines = p.lines ++ Printer.rendered p.indent p.depth es := by
  obtain ⟨p', htell, hdepth, hlines⟩ := tellAll_printer told.label p es
  rw [eq_of_printer? hp, htell] at h
  rcases h with rfl | rfl
  · exact ⟨p', rfl, hdepth, hlines⟩
  · exact ⟨p', rfl, hdepth, hlines⟩

end Holds

end Sink

end StatementLang
