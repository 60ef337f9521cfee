import Mathlib.Data.List.Forall2

/-!
# Step machines with a trace

A machine consumes one input per step, changes its state and emits events; a step
that never comes back is `none`.  `run` chains the steps and joins their events, so
the trace of a run is everything the machine has done to its surroundings.

    I s₀ [] → (a step that meets C keeps I) → every step of the run meets C →
      run s₀ is = some (s, tr) → I s tr                              (run_invariant)

`AllSteps C s is` says that every step of the run from `s` over `is` meets `C`,
which may speak about the state before the step and about its input.  `AtEvery P tr tr'`
says that every event of `tr'`, with everything since the start of `tr` as its past,
meets `P`.  `EveryStep P past s is` says that every step of the run meets `P`, which sees
the whole step.
-/

namespace StepMachine

/-! ## Properties of the events of a trace -/

section Trace

variable {ε : Type} {P Q : List ε → ε → Prop}

/-- Every event of the trace meets `P` with what has happened before it. -/
def AtEvery (P : List ε → ε → Prop) : (past : List ε) → List ε → Prop
  | _, [] => True
  | past, e :: tr => P past e ∧ AtEvery P (past ++ [e]) tr

theorem atEvery_append {past tr es : List ε} :
    AtEvery P past (tr ++ es) ↔ AtEvery P past tr ∧ AtEvery P (past ++ tr) es := by
  induction tr generalizing past with
  | nil => simp [AtEvery]
  | cons e tr ih =>
    show P past e ∧ AtEvery P (past ++ [e]) (tr ++ es) ↔
      (P past e ∧ AtEvery P (past ++ [e]) tr) ∧ AtEvery P (past ++ e :: tr) es
    rw [ih, and_assoc, List.append_assoc]
    exact Iff.rfl

theorem atEvery_of_forall_mem {past tr : List ε} (h : ∀ past, ∀ e ∈ tr, P past e) :
    AtEvery P past tr := by
  induction tr generalizing past with
  | nil => trivial
  | cons e tr ih =>
    exact ⟨h past e List.mem_cons_self, ih fun past e' he' => h past e' (List.mem_cons_of_mem e he')⟩

theorem atEvery_iff {past tr : List ε} :
    AtEvery P past tr ↔ ∀ pre e post, tr = pre ++ e :: post → P (past ++ pre) e := by
  constructor
  · rintro h pre e post rfl
    exact (atEvery_append.1 h).2.1
  · intro h
    induction tr generalizing past with
    | nil => trivial
    | cons e tr ih =>
      have he := h [] e tr rfl
      rw [List.append_nil] at he
      refine ⟨he, ih fun pre e' post htr => ?_⟩
      have := h (e :: pre) e' post (by rw [htr]; rfl)
      rwa [List.append_assoc]

/-- The property of an event in the middle. -/
theorem AtEvery.at {past tr pre post : List ε} {e : ε} (h : AtEvery P past tr)
    (htr : tr = pre ++ e :: post) : P (past ++ pre) e := atEvery_iff.1 h pre e post htr

theorem AtEvery.mem {past tr : List ε} {e : ε} (h : AtEvery (fun _ e => Q [] e) past tr) (he : e ∈ tr) :
    Q [] e := by
  obtain ⟨pre, post, htr⟩ := List.append_of_mem he
  exact h.at htr

end Trace

/-! ## Machines and their runs -/

structure Machine (σ ι ε : Type) where
  /-- `none`: the step does not come back -/
  step : σ → ι → Option (σ × List ε)

namespace Machine

variable {σ ι ε : Type} (m : Machine σ ι ε)

def run : σ → List ι → Option (σ × List ε)
  | s, [] => some (s, [])
  | s, i :: is =>
    match m.step s i with
    | none => none
    | some (s₁, es) =>
      match run s₁ is with
      | none => none
      | some (s₂, tr) => some (s₂, es ++ tr)

/-- Every step taken from `s` over the inputs meets `C`. -/
def AllSteps (C : σ → ι → Prop) : σ → List ι → Prop
  | _, [] => True
  | s, i :: is => C s i ∧ ∀ s₁ es, m.step s i = some (s₁, es) → AllSteps C s₁ is

theorem AllSteps.cons {C : σ → ι → Prop} {s s₁ : σ} {i : ι} {is : List ι} {es : List ε} (hC : C s i)
    (hs : m.step s i = some (s₁, es)) (h : m.AllSteps C s₁ is) : m.AllSteps C s (i :: is) := by
  refine ⟨hC, fun s₂ es₂ hs₂ => ?_⟩
  obtain ⟨rfl, -⟩ := Prod.mk.inj (Option.some.inj (hs.symm.trans hs₂))
  exact h

/-- A condition on the steps is decided by taking them. -/
instance decidableAllSteps {C : σ → ι → Prop} [∀ s i, Decidable (C s i)] :
    ∀ (s : σ) (is : List ι), Decidable (m.AllSteps C s is)
  | _, [] => isTrue trivial
  | s, i :: is =>
    match h : m.step s i with
    | none => decidable_of_iff (C s i) ⟨fun hc => ⟨hc, fun s₁ es hs => by rw [h] at hs; cases hs⟩, And.left⟩
    | some (s₁, _) =>
      have : Decidable (m.AllSteps C s₁ is) := decidableAllSteps s₁ is
      decidable_of_iff (C s i ∧ m.AllSteps C s₁ is)
        ⟨fun hc => ⟨hc.1, fun s₂ es hs => by rw [h] at hs; cases hs; exact hc.2⟩, fun hc => ⟨hc.1, hc.2 s₁ _ h⟩⟩

theorem run_nil (s : σ) : m.run s [] = some (s, []) := rfl

theorem run_cons_eq_some (s s₂ : σ) (i : ι) (is : List ι) (tr : List ε) :
    m.run s (i :: is) = some (s₂, tr) ↔
      ∃ s₁ es tr₁, m.step s i = some (s₁, es) ∧ m.run s₁ is = some (s₂, tr₁) ∧ tr = es ++ tr₁ := by
  constructor
  · intro h
    unfold run at h
    cases hs : m.step s i with
    | none => rw [hs] at h; cases h
    | some r =>
      obtain ⟨s₁, es⟩ := r
      rw [hs] at h
      cases hr : m.run s₁ is with
      | none => simp only [hr] at h; cases h
      | some r =>
        obtain ⟨s₃, tr₁⟩ := r
        simp only [hr, Option.some.injEq, Prod.mk.injEq] at h
        obtain ⟨rfl, rfl⟩ := h
        exact ⟨s₁, es, tr₁, rfl, hr, rfl⟩
  · rintro ⟨s₁, es, tr₁, hs, hr, rfl⟩
    unfold run
    simp only [hs, hr]

theorem run_append {s s₁ s₂ : σ} {is js : List ι} {tr₁ tr₂ : List ε} (h₁ : m.run s is = some (s₁, tr₁))
    (h₂ : m.run s₁ js = some (s₂, tr₂)) : m.run s (is ++ js) = some (s₂, tr₁ ++ tr₂) := by
  induction is generalizing s tr₁ with
  | nil =>
    rw [run_nil] at h₁
    cases h₁
    exact h₂
  | cons i is ih =>
    obtain ⟨s', es, tr, hs, hr, rfl⟩ := (m.run_cons_eq_some _ _ _ _ _).1 h₁
    exact (m.run_cons_eq_some _ _ _ _ _).2 ⟨s', es, tr ++ tr₂, hs, ih hr, List.append_assoc _ _ _⟩

theorem run_singleton {s s₁ : σ} {i : ι} {es : List ε} (h : m.step s i = some (s₁, es)) :
    m.run s [i] = some (s₁, es) :=
  (m.run_cons_eq_some _ _ _ _ _).2 ⟨s₁, es, [], h, rfl, (List.append_nil es).symm⟩

theorem allSteps_of_forall {Q : ι → Prop} (s : σ) (is : List ι) (h : ∀ i ∈ is, Q i) :
    m.AllSteps (fun _ i => Q i) s is := by
  induction is generalizing s with
  | nil => trivial
  | cons i is ih =>
    refine ⟨h i List.mem_cons_self, fun s₁ es _ => ih s₁ fun j hj => ?_⟩
    exact h j (List.mem_cons_of_mem i hj)

theorem AllSteps.and {C D : σ → ι → Prop} {s : σ} {is : List ι} (hC : m.AllSteps C s is)
    (hD : m.AllSteps D s is) : m.AllSteps (fun s i => C s i ∧ D s i) s is := by
  induction is generalizing s with
  | nil => trivial
  | cons i is ih =>
    exact ⟨⟨hC.1, hD.1⟩, fun s₁ es hs => ih (hC.2 s₁ es hs) (hD.2 s₁ es hs)⟩

theorem run_invariant_from {C : σ → ι → Prop} (I : σ → List ε → Prop)
    (hstep : ∀ s tr i s₁ es, I s tr → C s i → m.step s i = some (s₁, es) → I s₁ (tr ++ es))
    {s s₂ : σ} {is : List ι} {tr₀ tr : List ε} (h₀ : I s tr₀) (hC : m.AllSteps C s is)
    (hrun : m.run s is = some (s₂, tr)) : I s₂ (tr₀ ++ tr) := by
  induction is generalizing s tr₀ tr with
  | nil =>
    rw [run_nil] at hrun
    cases hrun
    rwa [List.append_nil]
  | cons i is ih =>
    obtain ⟨s₁, es, tr₁, hs, hr, rfl⟩ := (m.run_cons_eq_some _ _ _ _ _).1 hrun
    have h₁ := ih (hstep s tr₀ i s₁ es h₀ hC.1 hs) (hC.2 s₁ es hs) hr
    rwa [List.append_assoc] at h₁

/-- **Run rule.**  What holds at the start and is kept by every step that meets `C`
holds after every run whose steps meet `C`. -/
theorem run_invariant {C : σ → ι → Prop} (I : σ → List ε → Prop)
    (hstep : ∀ s tr i s₁ es, I s tr → C s i → m.step s i = some (s₁, es) → I s₁ (tr ++ es))
    {s s₂ : σ} {is : List ι} {tr : List ε} (h₀ : I s []) (hC : m.AllSteps C s is)
    (hrun : m.run s is = some (s₂, tr)) : I s₂ tr := by
  simpa using m.run_invariant_from I hstep h₀ hC hrun

/-- The run rule without a condition on the steps. -/
theorem run_invariant_always (I : σ → List ε → Prop)
    (hstep : ∀ s tr i s₁ es, I s tr → m.step s i = some (s₁, es) → I s₁ (tr ++ es))
    {s s₂ : σ} {is : List ι} {tr : List ε} (h₀ : I s [])
    (hrun : m.run s is = some (s₂, tr)) : I s₂ tr :=
  m.run_invariant (C := fun _ _ => True) I (fun s tr i s₁ es h _ hs => hstep s tr i s₁ es h hs) h₀
    (m.allSteps_of_forall s is fun _ _ => trivial) hrun

/-- What `g` reads off the steps of the run. -/
def collect {δ : Type} (g : σ → ι → List δ) : σ → List ι → List δ
  | _, [] => []
  | s, i :: is =>
    match m.step s i with
    | none => []
    | some (s₁, _) => g s i ++ collect g s₁ is

/-- The run rule for an invariant that also speaks about what has been read so far. -/
theorem run_collect {δ : Type} {g : σ → ι → List δ} (I : σ → List δ → List ε → Prop)
    (hstep : ∀ s ds tr i s₁ es, I s ds tr → m.step s i = some (s₁, es) → I s₁ (ds ++ g s i) (tr ++ es))
    {s s₂ : σ} {is : List ι} {ds : List δ} {tr₀ tr : List ε} (h₀ : I s ds tr₀)
    (hrun : m.run s is = some (s₂, tr)) : I s₂ (ds ++ m.collect g s is) (tr₀ ++ tr) := by
  induction is generalizing s ds tr₀ tr with
  | nil =>
    rw [run_nil] at hrun
    cases hrun
    simpa [collect] using h₀
  | cons i is ih =>
    obtain ⟨s₁, es, tr₁, hs, hr, rfl⟩ := (m.run_cons_eq_some _ _ _ _ _).1 hrun
    have h₁ := ih (hstep s ds tr₀ i s₁ es h₀ hs) hr
    have hcollect : m.collect g s (i :: is) = g s i ++ m.collect g s₁ is := by simp only [collect, hs]
    rwa [hcollect, ← List.append_assoc, ← List.append_assoc]

/-- When an event property of one step is a condition on the step, the event property of
a run is the condition on all its steps. -/
theorem allSteps_iff_atEvery {C : σ → ι → Prop} {P : List ε → ε → Prop} (I : σ → List ε → Prop)
    (hstep : ∀ s tr i s₁ es, I s tr → m.step s i = some (s₁, es) →
      I s₁ (tr ++ es) ∧ (C s i ↔ AtEvery P tr es))
    {s s₂ : σ} {is : List ι} {tr₀ tr : List ε} (h₀ : I s tr₀) (hrun : m.run s is = some (s₂, tr)) :
    m.AllSteps C s is ↔ AtEvery P tr₀ tr := by
  induction is generalizing s tr₀ tr with
  | nil =>
    rw [run_nil] at hrun
    cases hrun
    exact Iff.rfl
  | cons i is ih =>
    obtain ⟨s₁, es, tr₁, hs, hr, rfl⟩ := (m.run_cons_eq_some _ _ _ _ _).1 hrun
    obtain ⟨h₁, hiff⟩ := hstep s tr₀ i s₁ es h₀ hs
    have hrest := ih h₁ hr
    rw [atEvery_append, ← hiff, ← hrest]
    constructor
    · exact fun h => ⟨h.1, h.2 s₁ es hs⟩
    · rintro ⟨hc, h⟩
      refine ⟨hc, fun s' es' hs' => ?_⟩
      obtain ⟨rfl, rfl⟩ := Prod.mk.inj (Option.some.inj (hs.symm.trans hs'))
      exact h

/-- Every step taken from `s` over the inputs meets `P`, which speaks about the events
before the step, the state and the input, the state after it and its events. -/
def EveryStep (P : List ε → σ → ι → σ → List ε → Prop) : (past : List ε) → σ → List ι → Prop
  | _, _, [] => True
  | past, s, i :: is =>
    ∀ s₁ es, m.step s i = some (s₁, es) → P past s i s₁ es ∧ EveryStep P (past ++ es) s₁ is

/-- What every step from a state in `I` meets is met by every step of the run. -/
theorem everyStep_of {C : σ → ι → Prop} {P : List ε → σ → ι → σ → List ε → Prop} (I : σ → List ε → Prop)
    (hstep : ∀ s tr i s₁ es, I s tr → C s i → m.step s i = some (s₁, es) → I s₁ (tr ++ es) ∧ P tr s i s₁ es)
    {s : σ} {is : List ι} {tr₀ : List ε} (h₀ : I s tr₀) (hC : m.AllSteps C s is) : m.EveryStep P tr₀ s is := by
  induction is generalizing s tr₀ with
  | nil => trivial
  | cons i is ih =>
    intro s₁ es hs
    obtain ⟨h₁, hp⟩ := hstep s tr₀ i s₁ es h₀ hC.1 hs
    exact ⟨hp, ih h₁ (hC.2 s₁ es hs)⟩

/-- The same for a property of whole steps. -/
theorem allSteps_iff_everyStep {C : σ → ι → Prop} {P : List ε → σ → ι → σ → List ε → Prop}
    (I : σ → List ε → Prop)
    (hstep : ∀ s tr i s₁ es, I s tr → m.step s i = some (s₁, es) →
      I s₁ (tr ++ es) ∧ (C s i ↔ P tr s i s₁ es))
    {s s₂ : σ} {is : List ι} {tr₀ tr : List ε} (h₀ : I s tr₀) (hrun : m.run s is = some (s₂, tr)) :
    m.AllSteps C s is ↔ m.EveryStep P tr₀ s is := by
  induction is generalizing s tr₀ tr with
  | nil => exact Iff.rfl
  | cons i is ih =>
    obtain ⟨s₁, es, tr₁, hs, hr, rfl⟩ := (m.run_cons_eq_some _ _ _ _ _).1 hrun
    obtain ⟨h₁, hiff⟩ := hstep s tr₀ i s₁ es h₀ hs
    have hrest := ih h₁ hr
    constructor
    · rintro ⟨hc, h⟩ s' es' hs'
      obtain ⟨rfl, rfl⟩ := Prod.mk.inj (Option.some.inj (hs.symm.trans hs'))
      exact ⟨hiff.1 hc, hrest.1 (h s₁ es hs)⟩
    · intro h
      obtain ⟨hp, hall⟩ := h s₁ es hs
      refine ⟨hiff.2 hp, fun s' es' hs' => ?_⟩
      obtain ⟨rfl, rfl⟩ := Prod.mk.inj (Option.some.inj (hs.symm.trans hs'))
      exact hrest.2 hall

/-- **Two runs.**  When related states take related inputs to related states and related
events, runs over related inputs end in related states with related traces, and the
second comes back if the first does. -/
theorem run_related (R : σ → σ → Prop) (S : ι → ι → Prop) (E : List ε → List ε → Prop)
    (hnil : E [] []) (happend : ∀ es es' tr tr', E es es' → E tr tr' → E (es ++ tr) (es' ++ tr'))
    (hstep : ∀ s t i j s₁ es, R s t → S i j → m.step s i = some (s₁, es) →
      ∃ t₁ es', m.step t j = some (t₁, es') ∧ R s₁ t₁ ∧ E es es')
    {s t s₂ : σ} {is js : List ι} {tr : List ε} (h₀ : R s t) (hin : List.Forall₂ S is js)
    (hrun : m.run s is = some (s₂, tr)) :
    ∃ t₂ tr', m.run t js = some (t₂, tr') ∧ R s₂ t₂ ∧ E tr tr' := by
  induction hin generalizing s t tr with
  | nil =>
    rw [run_nil] at hrun
    cases hrun
    exact ⟨t, [], rfl, h₀, hnil⟩
  | @cons i j is js hij _ ih =>
    obtain ⟨s₁, es, tr₁, hs, hr, rfl⟩ := (m.run_cons_eq_some _ _ _ _ _).1 hrun
    obtain ⟨t₁, es', ht, h₁, he⟩ := hstep s t i j s₁ es h₀ hij hs
    obtain ⟨t₂, tr', hr', h₂, htr⟩ := ih h₁ hr
    exact ⟨t₂, es' ++ tr', (m.run_cons_eq_some _ _ _ _ _).2 ⟨t₁, es', tr', ht, hr', rfl⟩, h₂,
      happend _ _ _ _ he htr⟩

/-- **Two machines.**  When related states take the same input to related states with the
same events, or both to nothing, so do the runs. -/
theorem run_bisim {τ : Type} (m' : Machine τ ι ε) {Q : ι → Prop} (R : σ → τ → Prop)
    (hstep : ∀ s t i, R s t → Q i →
      Option.Rel (fun r r' => R r.1 r'.1 ∧ r.2 = r'.2) (m.step s i) (m'.step t i))
    {s : σ} {t : τ} (h₀ : R s t) {is : List ι} (hQ : ∀ i ∈ is, Q i) :
    Option.Rel (fun r r' => R r.1 r'.1 ∧ r.2 = r'.2) (m.run s is) (m'.run t is) := by
  induction is generalizing s t with
  | nil => exact .some ⟨h₀, rfl⟩
  | cons i is ih =>
    have hi := hstep s t i h₀ (hQ i List.mem_cons_self)
    unfold run
    revert hi
    generalize m.step s i = x, m'.step t i = y
    intro hi
    cases hi with
    | none => exact .none
    | @some r r' h =>
      have hrest := ih h.1 fun j hj => hQ j (List.mem_cons_of_mem i hj)
      revert hrest
      simp only
      generalize m.run r.1 is = x, m'.run r'.1 is = y
      intro hrest
      cases hrest with
      | none => exact .none
      | some h' => exact .some ⟨h'.1, congrArg₂ (· ++ ·) h.2 h'.2⟩

theorem rel_events {τ : Type} {R : σ → τ → Prop} {x : Option (σ × List ε)} {y : Option (τ × List ε)}
    (h : Option.Rel (fun r r' => R r.1 r'.1 ∧ r.2 = r'.2) x y) :
    x.map Prod.snd = y.map Prod.snd := by
  cases h with
  | none => rfl
  | some h => exact congrArg some h.2

/-- **One machine inside another.**  When each step is, seen through `f` and `g`, no step or
one step of the second machine, so is the run. -/
theorem run_project {τ κ δ : Type} (m' : Machine τ κ δ) {C : σ → ι → Prop} (R : σ → τ → Prop) (f : ι → Option κ)
    (g : ε → Option δ)
    (hstep : ∀ s t i s₁ es, R s t → C s i → m.step s i = some (s₁, es) →
      ∃ t₁, m'.run t (f i).toList = some (t₁, es.filterMap g) ∧ R s₁ t₁)
    {s s₂ : σ} {t : τ} {is : List ι} {tr : List ε} (h₀ : R s t) (hC : m.AllSteps C s is)
    (hrun : m.run s is = some (s₂, tr)) :
    ∃ t₂, m'.run t (is.filterMap f) = some (t₂, tr.filterMap g) ∧ R s₂ t₂ := by
  induction is generalizing s t tr with
  | nil =>
    rw [run_nil] at hrun
    cases hrun
    exact ⟨t, rfl, h₀⟩
  | cons i is ih =>
    obtain ⟨s₁, es, tr₁, hs, hr, rfl⟩ := (m.run_cons_eq_some _ _ _ _ _).1 hrun
    obtain ⟨t₁, ht, h₁⟩ := hstep s t i s₁ es h₀ hC.1 hs
    obtain ⟨t₂, hr', h₂⟩ := ih h₁ (hC.2 s₁ es hs) hr
    refine ⟨t₂, ?_, h₂⟩
    have hcons : (i :: is).filterMap f = (f i).toList ++ is.filterMap f := by
      rw [List.filterMap_cons]
      cases f i <;> rfl
    rw [hcons, List.filterMap_append]
    exact m'.run_append ht hr'

/-- A run comes back when every step from a state in `I` comes back in `I`. -/
theorem run_total (I : σ → Prop)
    (hstep : ∀ s i, I s → ∃ s₁ es, m.step s i = some (s₁, es) ∧ I s₁) {s : σ} (h₀ : I s)
    (is : List ι) : ∃ s₂ tr, m.run s is = some (s₂, tr) := by
  induction is generalizing s with
  | nil => exact ⟨s, [], rfl⟩
  | cons i is ih =>
    obtain ⟨s₁, es, hs, h₁⟩ := hstep s i h₀
    obtain ⟨s₂, tr, hr⟩ := ih h₁
    exact ⟨s₂, es ++ tr, (m.run_cons_eq_some _ _ _ _ _).2 ⟨s₁, es, tr, hs, hr, rfl⟩⟩

/-- A run whose steps meet `C` comes back, and keeps what every such step keeps. -/
theorem run_exists {C : σ → ι → Prop} (I : σ → List ε → Prop)
    (hstep : ∀ s tr i, I s tr → C s i → ∃ s₁ es, m.step s i = some (s₁, es) ∧ I s₁ (tr ++ es))
    {s : σ} {is : List ι} {tr₀ : List ε} (h₀ : I s tr₀) (hC : m.AllSteps C s is) :
    ∃ s₂ tr, m.run s is = some (s₂, tr) ∧ I s₂ (tr₀ ++ tr) := by
  induction is generalizing s tr₀ with
  | nil => exact ⟨s, [], rfl, by rwa [List.append_nil]⟩
  | cons i is ih =>
    obtain ⟨s₁, es, hs, h₁⟩ := hstep s tr₀ i h₀ hC.1
    obtain ⟨s₂, tr, hr, h₂⟩ := ih h₁ (hC.2 s₁ es hs)
    rw [List.append_assoc] at h₂
    exact ⟨s₂, es ++ tr, (m.run_cons_eq_some _ _ _ _ _).2 ⟨s₁, es, tr, hs, hr, rfl⟩, h₂⟩

end Machine

end StepMachine
