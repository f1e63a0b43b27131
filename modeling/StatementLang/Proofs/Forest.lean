import StatementLang.Proofs.Course
import StatementLang.Session.Run

/-!
Trees over tokens, and the courses that walk them.

A forest is a sequence of trees: the first one, which is a token or a phrase over a forest of its
own, and then the others. `Builds g next gs f` says that the goals `gs` come to the forest `f` when
a token of the kind `next` follows; every choice sees the token ahead of it in the forest. What
goals build they also walk, and a course to the end of its goals has built a forest
(`Course.reaches_end_iff`).
-/

namespace StatementLang

inductive Forest where
  | nil
  | leaf (t : Token) (rest : Forest)
  | node (n : Nonterminal) (children rest : Forest)
  deriving DecidableEq

namespace Forest

def tokens : Forest → List Token
  | nil => []
  | leaf t rest => t :: rest.tokens
  | node _ children rest => children.tokens ++ rest.tokens

@[simp] lemma tokens_nil : nil.tokens = [] := rfl
@[simp] lemma tokens_leaf (t : Token) (rest : Forest) :
    (leaf t rest).tokens = t :: rest.tokens := rfl
@[simp] lemma tokens_node (n : Nonterminal) (children rest : Forest) :
    (node n children rest).tokens = children.tokens ++ rest.tokens := rfl

/-- The events of a walk, depth first. -/
def walk : Forest → List Event
  | nil => []
  | leaf t rest => .ofToken t :: rest.walk
  | node n children rest => .ofEnter n.name :: (children.walk ++ .ofLeave n.name :: rest.walk)

def size : Forest → Nat
  | nil => 0
  | leaf _ rest => rest.size + 1
  | node _ children rest => children.size + rest.size + 1

/-- Events that do not go on with the walk of a forest. -/
def Closes (es : List Event) : Prop := ∀ e ∈ es.head?, e.tag = .leave

lemma closes_nil : Closes [] := by simp [Closes]

lemma closes_leave (name : String) (es : List Event) : Closes (.ofLeave name :: es) := by
  simp [Closes, Event.ofLeave]

lemma not_closes_enter (name : String) (es : List Event) : ¬ Closes (.ofEnter name :: es) := by
  simp [Closes, Event.ofEnter]

lemma not_closes_token (t : Token) (es : List Event) : ¬ Closes (.ofToken t :: es) := by
  simp [Closes, Event.ofToken]

theorem walk_injective {f f' : Forest} {es es' : List Event} (h : f.walk ++ es = f'.walk ++ es')
    (hes : Closes es) (hes' : Closes es') : f = f' ∧ es = es' := by
  -- By the first event: where a forest is used up, events follow that close, and the children of a
  -- node are cut off by the event of leaving it.
  induction f generalizing f' es es' with
  | nil =>
    rw [walk, List.nil_append] at h
    subst h
    cases f' with
    | nil => exact ⟨rfl, rfl⟩
    | leaf => exact absurd hes (not_closes_token _ _)
    | node => exact absurd hes (not_closes_enter _ _)
  | leaf t rest ih =>
    rw [walk, List.cons_append] at h
    cases f' with
    | nil =>
      rw [walk, List.nil_append] at h
      exact absurd hes' (h ▸ not_closes_token _ _)
    | leaf t' rest' =>
      rw [walk, List.cons_append, List.cons.injEq] at h
      obtain ⟨rfl, rfl⟩ := ih h.2 hes hes'
      have : t = t' := by simpa [Event.ofToken] using congrArg Event.token h.1
      exact ⟨by rw [this], rfl⟩
    | node n c r => simp [walk, Event.ofToken, Event.ofEnter] at h
  | node n children rest ihc ihr =>
    rw [walk, List.cons_append, List.append_assoc, List.cons_append] at h
    cases f' with
    | nil =>
      rw [walk, List.nil_append] at h
      exact absurd hes' (h ▸ not_closes_enter _ _)
    | leaf t r => simp [walk, Event.ofToken, Event.ofEnter] at h
    | node n' children' rest' =>
      rw [walk, List.cons_append, List.append_assoc, List.cons_append, List.cons.injEq] at h
      have hn : n = n' := Nonterminal.name_injective (congrArg Event.name h.1)
      obtain ⟨rfl, hr⟩ := ihc h.2 (closes_leave _ _) (closes_leave _ _)
      obtain ⟨rfl, rfl⟩ := ihr (List.cons.inj hr).2 hes hes'
      exact ⟨by rw [hn], rfl⟩

end Forest

/-! ### What goals build -/

inductive Builds (g : Grammar) : Kind → List Goal → Forest → Prop
  | nil (next : Kind) : Builds g next [] .nil
  | token {next : Kind} {x : Symbol} {t : Token} {gs : List Goal} {rest : Forest}
    (ht : t.kind = .known x) (h : Builds g next gs rest) :
    Builds g next (.token x :: gs) (.leaf t rest)
  | phrase {next : Kind} {n : Nonterminal} {gs : List Goal} {children rest : Forest}
    (hc : Builds g (ahead next rest.tokens) (g.body n) children) (h : Builds g next gs rest) :
    Builds g next (.phrase n :: gs) (.node n children rest)
  | choice {next : Kind} {c : Choice} {gs new : List Goal} {f : Forest}
    (hs : g.select c (ahead next f.tokens) = .ok new) (h : Builds g next (new ++ gs) f) :
    Builds g next (.choice c :: gs) f

namespace Builds

variable {g : Grammar} {next : Kind} {gs : List Goal} {f : Forest}

@[simp] lemma nil_iff : Builds g next [] f ↔ f = .nil := by
  constructor
  · intro h; cases h; rfl
  · rintro rfl; exact .nil next

@[simp] lemma token_iff {x : Symbol} : Builds g next (.token x :: gs) f ↔
    ∃ t rest, f = .leaf t rest ∧ t.kind = .known x ∧ Builds g next gs rest := by
  constructor
  · intro h
    cases h with
    | token ht h => exact ⟨_, _, rfl, ht, h⟩
  · rintro ⟨t, rest, rfl, ht, h⟩
    exact .token ht h

@[simp] lemma phrase_iff {n : Nonterminal} : Builds g next (.phrase n :: gs) f ↔
    ∃ children rest, f = .node n children rest ∧
      Builds g (ahead next rest.tokens) (g.body n) children ∧ Builds g next gs rest := by
  constructor
  · intro h
    cases h with
    | phrase hc h => exact ⟨_, _, rfl, hc, h⟩
  · rintro ⟨children, rest, rfl, hc, h⟩
    exact .phrase hc h

lemma choice_iff {c : Choice} : Builds g next (.choice c :: gs) f ↔
    ∃ new, g.select c (ahead next f.tokens) = .ok new ∧ Builds g next (new ++ gs) f := by
  constructor
  · intro h
    cases h with
    | choice hs h => exact ⟨_, hs, h⟩
  · rintro ⟨new, hs, h⟩
    exact .choice hs h

theorem course (h : Builds g next gs f) : Course g next gs f.tokens f.walk [] := by
  induction h with
  | nil next => exact .refl []
  | token ht _ ih => exact .token ht ih
  | phrase _ _ ihc ih => exact .phrase ((ihc.frame _).trans (.leave ih))
  | choice hs _ ih => exact .choice hs ih

end Builds

/-- The rules of the grammar leave no phrase that they have not entered. -/
structure Grammar.Plain (g : Grammar) : Prop where
  body : ∀ n, Goal.openPhrases (g.body n) = []
  select : ∀ c k new, g.select c k = .ok new → Goal.openPhrases new = []

namespace Course

variable {g : Grammar} {next : Kind} {gs hs : List Goal} {ts : List Token} {es : List Event}

theorem exists_builds (hg : g.Plain) (h : Course g next (gs ++ hs) ts es [])
    (hgs : Goal.openPhrases gs = []) :
    ∃ f us fs, Builds g (ahead next us) gs f ∧ Course g next hs us fs [] ∧
      ts = f.tokens ++ us ∧ es = f.walk ++ fs := by
  -- on the number of events; a choice, which is no event, on the course itself
  induction hk : es.length using Nat.strongRecOn generalizing gs hs ts es with
  | ind k ih =>
    generalize hG : gs ++ hs = G at h
    generalize hE : ([] : List Goal) = E at h
    induction h generalizing gs with
    | refl =>
      subst hE
      obtain ⟨rfl, rfl⟩ := List.append_eq_nil_iff.1 hG
      exact ⟨.nil, [], [], .nil _, .refl [], rfl, rfl⟩
    | @token x t gs₁ gs₂ ts es ht h _ =>
      subst hE
      rcases gs with _ | ⟨a, gs⟩
      · rw [List.nil_append] at hG
        exact ⟨.nil, _, _, .nil _, hG ▸ .token ht h, rfl, rfl⟩
      · obtain ⟨rfl, rfl⟩ := List.cons.inj hG
        obtain ⟨f, us, fs, hb, hc, rfl, rfl⟩ := ih es.length (by simp [← hk]) h hgs rfl
        exact ⟨.leaf t f, us, fs, .token ht hb, hc, rfl, rfl⟩
    | @phrase n gs₁ gs₂ ts es h _ =>
      subst hE
      rcases gs with _ | ⟨a, gs⟩
      · rw [List.nil_append] at hG
        exact ⟨.nil, _, _, .nil _, hG ▸ .phrase h, rfl, rfl⟩
      · obtain ⟨rfl, rfl⟩ := List.cons.inj hG
        obtain ⟨f, us, fs, hb, hc, rfl, rfl⟩ := ih es.length (by simp [← hk]) h (hg.body n) rfl
        cases hc with
        | leave hc =>
          obtain ⟨f', us, fs, hb', hc', rfl, rfl⟩ :=
            ih _ (by simp [← hk]; omega) hc hgs rfl
          refine ⟨.node n f f', us, fs, .phrase ?_ hb', hc', ?_, ?_⟩
          · rwa [← ahead_append]
          · simp
          · simp [Forest.walk]
    | @leave n gs₁ gs₂ ts es h _ =>
      subst hE
      rcases gs with _ | ⟨a, gs⟩
      · rw [List.nil_append] at hG
        exact ⟨.nil, _, _, .nil _, hG ▸ .leave h, rfl, rfl⟩
      · obtain ⟨rfl, rfl⟩ := List.cons.inj hG
        simp [Goal.openPhrases] at hgs
    | @choice c gs₁ gs₂ new ts es hs' h ih' =>
      rcases gs with _ | ⟨a, gs⟩
      · subst hE
        rw [List.nil_append] at hG
        exact ⟨.nil, _, _, .nil _, hG ▸ .choice hs' h, rfl, rfl⟩
      · obtain ⟨rfl, rfl⟩ := List.cons.inj hG
        have hnew : Goal.openPhrases (new ++ gs) = [] := by
          rw [Goal.openPhrases_append, hg.select _ _ _ hs']
          exact hgs
        obtain ⟨f, us, fs, hb, hc, rfl, rfl⟩ := ih' hnew hk (List.append_assoc ..) hE
        exact ⟨f, us, fs, .choice (by rwa [← ahead_append]) hb, hc, rfl, rfl⟩

/-- **The courses to the end** of goals are the walks of the forests that the goals build. -/
theorem reaches_end_iff (hg : g.Plain) (hgs : Goal.openPhrases gs = []) :
    Course g next gs ts es [] ↔ ∃ f, Builds g next gs f ∧ ts = f.tokens ∧ es = f.walk := by
  constructor
  · intro h
    rw [← List.append_nil gs] at h
    obtain ⟨f, us, fs, hb, hc, rfl, rfl⟩ := exists_builds hg h hgs
    cases hc
    exact ⟨f, by simpa using hb, by simp, by simp⟩
  · rintro ⟨f, hb, rfl, rfl⟩
    exact hb.course

end Course

end StatementLang
