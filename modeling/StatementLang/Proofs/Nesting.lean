import StatementLang.Proofs.Forest

/-!
Events that nest.

Events are scanned with the names of the phrases that are open. A course adds just what it opens
and does not close (`Course.openAfter`), so after a course to the end nothing is open. How many
phrases are open is how many more of them the events enter than they leave (`Event.depth`), and that
is never negative (`Event.depth_take_nonneg`).
-/

namespace StatementLang

/-- The names of the phrases that are open after some events, the innermost first, unless one is
left that is not the innermost. -/
def Event.openAfter : List String → List Event → Option (List String)
  | names, [] => some names
  | names, e :: es =>
    match e.tag, names with
    | .enter, names => openAfter (e.name :: names) es
    | .leave, n :: names => if n = e.name then openAfter names es else none
    | .leave, [] => none
    | _, names => openAfter names es

namespace Event

variable (names : List String) (es : List Event)

@[simp] lemma openAfter_nil : openAfter names [] = some names := by
  rw [openAfter.eq_def]

@[simp] lemma openAfter_enter (n : String) :
    openAfter names (ofEnter n :: es) = openAfter (n :: names) es := by
  rw [openAfter.eq_def]
  rfl

@[simp] lemma openAfter_leave (n : String) :
    openAfter (n :: names) (ofLeave n :: es) = openAfter names es := by
  rw [openAfter.eq_def]
  exact if_pos rfl

@[simp] lemma openAfter_token (t : Token) :
    openAfter names (ofToken t :: es) = openAfter names es := by
  rw [openAfter.eq_def]
  cases names <;> rfl

def openStep : List String → Event → Option (List String)
  | names, e =>
    match e.tag, names with
    | .enter, names => some (e.name :: names)
    | .leave, n :: names => if n = e.name then some names else none
    | .leave, [] => none
    | _, names => some names

lemma openAfter_cons (e : Event) :
    openAfter names (e :: es) = (openStep names e).bind fun names => openAfter names es := by
  rw [openAfter.eq_def]
  obtain ⟨tag, name, token⟩ := e
  cases tag with
  | enter | terminal | custom => cases names <;> rfl
  | leave =>
    rcases names with _ | ⟨n, names⟩
    · rfl
    · simp only [openStep]
      split <;> rfl

lemma openAfter_append (fs : List Event) :
    openAfter names (es ++ fs) = (openAfter names es).bind fun names => openAfter names fs := by
  induction es generalizing names with
  | nil => rw [List.nil_append, openAfter_nil, Option.bind_some]
  | cons e es ih =>
    rw [List.cons_append, openAfter_cons, openAfter_cons, Option.bind_assoc]
    exact congrArg _ (funext ih)

/-! ### Depth -/

/-- How many more phrases the events enter than they leave. -/
def depth (es : List Event) : Int := es.countP (·.tag = .enter) - es.countP (·.tag = .leave)

@[simp] lemma depth_nil : depth [] = 0 := rfl

lemma depth_append (es fs : List Event) : depth (es ++ fs) = depth es + depth fs := by
  simp only [depth, List.countP_append]
  omega

lemma depth_cons (e : Event) (es : List Event) : depth (e :: es) = depth [e] + depth es :=
  depth_append [e] es

variable {names es} {names' : List String} {e : Event}

lemma openStep_frame (h : openStep names e = some names') (outer : List String) :
    openStep (names ++ outer) e = some (names' ++ outer) ∧
      (names'.length : Int) = names.length + depth [e] := by
  obtain ⟨tag, name, token⟩ := e
  cases tag with
  | enter =>
    cases h
    exact ⟨rfl, rfl⟩
  | terminal | custom =>
    cases h
    exact ⟨rfl, (Int.add_zero _).symm⟩
  | leave =>
    rcases names with _ | ⟨n, names⟩
    · cases h
    · simp only [openStep] at h
      split at h
      · next hn =>
        cases h
        have hdepth : depth [⟨.leave, name, token⟩] = -1 := rfl
        refine ⟨if_pos hn, ?_⟩
        rw [List.length_cons, hdepth]
        omega
      · cases h

lemma openAfter_frame (h : openAfter names es = some names') (outer : List String) :
    openAfter (names ++ outer) es = some (names' ++ outer) ∧
      (names'.length : Int) = names.length + depth es := by
  induction es generalizing names with
  | nil =>
    cases (openAfter_nil names).symm.trans h
    exact ⟨openAfter_nil _, (Int.add_zero _).symm⟩
  | cons e es ih =>
    rw [openAfter_cons, Option.bind_eq_some_iff] at h
    obtain ⟨mid, hstep, hrest⟩ := h
    obtain ⟨hstep', hlength⟩ := openStep_frame hstep outer
    obtain ⟨hrest', hlength'⟩ := ih hrest
    rw [openAfter_cons, hstep', Option.bind_some, depth_cons]
    exact ⟨hrest', by omega⟩

lemma depth_eq_length (h : openAfter [] es = some names) : depth es = names.length := by
  have hlength := (openAfter_frame h []).2
  simp only [List.length_nil] at hlength
  omega

lemma depth_take_nonneg (h : openAfter [] es = some names) (k : Nat) : 0 ≤ depth (es.take k) := by
  rw [← List.take_append_drop k es, openAfter_append, Option.bind_eq_some_iff] at h
  obtain ⟨mid, hmid, -⟩ := h
  rw [depth_eq_length hmid]
  omega

end Event

/-- **What a course opens and does not close** is what is open at its end. -/
theorem Course.openAfter {g : Grammar} (hg : g.Plain) {k : Kind} {gs gs' : List Goal}
    {ts : List Token} {es : List Event} (h : Course g k gs ts es gs') :
    Event.openAfter ((Goal.openPhrases gs).map Nonterminal.name) es =
      some ((Goal.openPhrases gs').map Nonterminal.name) := by
  induction h with
  | refl gs => exact Event.openAfter_nil _
  | token _ _ ih => exact (Event.openAfter_token _ _ _).trans ih
  | @phrase n gs gs' ts es _ ih =>
    rw [Goal.openPhrases_append, hg.body, List.nil_append] at ih
    exact (Event.openAfter_enter _ _ _).trans ih
  | leave _ ih => exact (Event.openAfter_leave _ _ _).trans ih
  | choice hc _ ih =>
    rw [Goal.openPhrases_append, hg.select _ _ _ hc, List.nil_append] at ih
    exact ih

end StatementLang
