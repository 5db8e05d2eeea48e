import Mathlib

/-! Rules for programs that change a state and may halt. A halted program leaves the state
it had reached, so what must hold there is a condition of its own beside the result's. -/
namespace Newplat.Base

section Rules

variable {σ ε α β ι κ : Type}

/-- From `P`, a run that returns meets `Q` and a run that halts leaves `E`. -/
def Spec (P : σ → Prop) (m : EStateM ε σ α) (Q : α → σ → Prop) (E : σ → Prop) : Prop :=
  ∀ s, P s → match m s with
    | .ok a s' => Q a s'
    | .error _ s' => E s'

/-- Whether it returns or halts, the program leaves what held before. -/
def Keeps (I : σ → Prop) (m : EStateM ε σ α) : Prop := Spec I m (fun _ => I) I

/-- From `P` the program returns, and meets `Q`, exactly when `c` holds. -/
def Decides (P : σ → Prop) (c : Prop) (m : EStateM ε σ α) (Q : α → σ → Prop) : Prop :=
  ∀ s, P s → (c ∧ ∃ a s', m s = .ok a s' ∧ Q a s') ∨ (¬ c ∧ ∃ e s', m s = .error e s')

def leaves : EStateM.Result ε σ α → σ
  | .ok _ s => s
  | .error _ s => s

variable {P P' I E E' : σ → Prop} {Q Q' : α → σ → Prop} {m : EStateM ε σ α}

theorem bind_ok {f : α → EStateM ε σ β} {s s' : σ} {a : α} (h : m s = .ok a s') :
    (m >>= f) s = f a s' := by
  have unfolded : (m >>= f) s = EStateM.bind m f s := rfl
  rw [unfolded, EStateM.bind, h]

theorem bind_error {f : α → EStateM ε σ β} {s s' : σ} {e : ε} (h : m s = .error e s') :
    (m >>= f) s = .error e s' := by
  have unfolded : (m >>= f) s = EStateM.bind m f s := rfl
  rw [unfolded, EStateM.bind, h]

@[simp] theorem pure_run (a : α) (s : σ) : (pure a : EStateM ε σ α) s = .ok a s := rfl

@[simp] theorem modify_run (f : σ → σ) (s : σ) : (modify f : EStateM ε σ Unit) s = .ok () (f s) := rfl

@[simp] theorem get_bind_run (f : σ → EStateM ε σ α) (s : σ) : (get >>= f) s = f s s := rfl

@[simp] theorem modify_bind_run (g : σ → σ) (f : Unit → EStateM ε σ α) (s : σ) :
    ((modify g : EStateM ε σ Unit) >>= f) s = f () (g s) := rfl

theorem spec_ok (spec : Spec P m Q E) {s s' : σ} {a : α} (before : P s) (returns : m s = .ok a s') :
    Q a s' := by
  have h := spec s before
  rwa [returns] at h

theorem spec_error (spec : Spec P m Q E) {s s' : σ} {e : ε} (before : P s)
    (halts : m s = .error e s') : E s' := by
  have h := spec s before
  rwa [halts] at h

theorem spec_leaves (spec : Spec P m (fun _ => I) E) {s : σ} (before : P s) :
    I (leaves (m s)) ∨ E (leaves (m s)) := by
  have h := spec s before
  cases run : m s with
  | ok a s' =>
    rw [run] at h
    exact Or.inl h
  | error e s' =>
    rw [run] at h
    exact Or.inr h

theorem spec_pure {a : α} (h : ∀ s, P s → Q a s) : Spec P (pure a : EStateM ε σ α) Q E :=
  fun s before => h s before

theorem spec_throw {e : ε} (h : ∀ s, P s → E s) : Spec P (throw e : EStateM ε σ α) Q E :=
  fun s before => h s before

theorem spec_modify {f : σ → σ} {R : Unit → σ → Prop} (h : ∀ s, P s → R () (f s)) :
    Spec P (modify f : EStateM ε σ Unit) R E :=
  fun s before => h s before

theorem spec_bind {R : β → σ → Prop} {f : α → EStateM ε σ β} (first : Spec P m Q E)
    (rest : ∀ a, Spec (Q a) (f a) R E) : Spec P (m >>= f) R E := by
  intro s before
  have h := first s before
  cases run : m s with
  | ok a s' =>
    rw [run] at h
    rw [bind_ok run]
    exact rest a s' h
  | error e s' =>
    rw [run] at h
    rw [bind_error run]
    exact h

theorem spec_get {f : σ → EStateM ε σ α} (h : ∀ s, P s → Spec (fun s' => s' = s) (f s) Q E) :
    Spec P (get >>= f) Q E :=
  fun s before => h s before s rfl

/-- Reading the state changes nothing, and what held of it holds of the copy. -/
theorem spec_copy {f : σ → EStateM ε σ α} (h : ∀ s, P s → Spec P (f s) Q E) : Spec P (get >>= f) Q E :=
  fun s before => h s before s before

theorem spec_weaken (spec : Spec P m Q E) (pre : ∀ s, P' s → P s) (post : ∀ a s, Q a s → Q' a s)
    (halt : ∀ s, E s → E' s) : Spec P' m Q' E' := by
  intro s before
  have h := spec s (pre s before)
  cases run : m s with
  | ok a s' =>
    rw [run] at h
    exact post a s' h
  | error e s' =>
    rw [run] at h
    exact halt s' h

theorem spec_from (spec : Spec P m Q E) (pre : ∀ s, P' s → P s) : Spec P' m Q E :=
  spec_weaken spec pre (fun _ _ held => held) fun _ held => held

theorem spec_at {s : σ} (spec : Spec P m Q E) (held : P s) : Spec (fun s' => s' = s) m Q E := by
  rintro s' rfl
  exact spec s' held

theorem spec_post (spec : Spec P m Q E) (post : ∀ a s, Q a s → Q' a s) : Spec P m Q' E :=
  spec_weaken spec (fun _ held => held) post fun _ held => held

theorem spec_halting (spec : Spec P m Q E) (halt : ∀ s, E s → E' s) : Spec P m Q E' :=
  spec_weaken spec (fun _ held => held) (fun _ _ held => held) halt

/-- A fact about no state can be used on the way. -/
theorem spec_fact {F : Prop} (h : F → Spec P m Q E) : Spec (fun s => F ∧ P s) m Q E :=
  fun s before => h before.1 s before.2

theorem spec_exists {R : β → σ → Prop} (h : ∀ b, Spec (R b) m Q E) : Spec (fun s => ∃ b, R b s) m Q E :=
  fun s ⟨b, before⟩ => h b s before

theorem spec_returns (spec : Spec P m Q fun _ => False) {s : σ} (before : P s) :
    ∃ a s', m s = .ok a s' ∧ Q a s' := by
  cases run : m s with
  | ok a s' => exact ⟨a, s', rfl, spec_ok spec before run⟩
  | error e s' => exact (spec_error spec before run).elim

/-- The run returned, in a state that passes the test. -/
def endsIn (test : σ → Bool) : EStateM.Result ε σ α → Bool
  | .ok _ s => test s
  | .error _ _ => false

theorem endsIn_ok {test : σ → Bool} {r : EStateM.Result ε σ α} (ends : endsIn test r = true) :
    ∃ a s, r = .ok a s ∧ test s = true := by
  cases r with
  | ok a s => exact ⟨a, s, rfl, ends⟩
  | error e s => cases ends

/-- How the run halted, when it did. -/
def haltOf : EStateM.Result ε σ α → Option ε
  | .ok _ _ => none
  | .error e _ => some e

theorem haltOf_error {e : ε} {r : EStateM.Result ε σ α} (halted : haltOf r = some e) : ∃ s, r = .error e s := by
  cases r with
  | ok a s => cases halted
  | error e' s =>
    cases halted
    exact ⟨s, rfl⟩

/-- Nothing is asked of the run. -/
theorem spec_any {P : σ → Prop} (m : EStateM ε σ α) : Spec P m (fun _ _ => True) fun _ => True := by
  intro s _
  cases m s <;> trivial

theorem spec_keeps (keeps : Keeps I m) : Spec I m (fun _ => I) fun _ => True :=
  spec_halting keeps fun _ _ => trivial

theorem keeps_pure {a : α} : Keeps I (pure a : EStateM ε σ α) :=
  spec_pure fun _ held => held

theorem keeps_throw {e : ε} : Keeps I (throw e : EStateM ε σ α) :=
  spec_throw fun _ held => held

theorem keeps_modify {f : σ → σ} (h : ∀ s, I s → I (f s)) : Keeps I (modify f : EStateM ε σ Unit) :=
  spec_modify h

theorem keeps_bind {f : α → EStateM ε σ β} (first : Keeps I m) (rest : ∀ a, Keeps I (f a)) :
    Keeps I (m >>= f) :=
  spec_bind first rest

theorem keeps_get {f : σ → EStateM ε σ α} (h : ∀ s, I s → Keeps I (f s)) : Keeps I (get >>= f) :=
  spec_copy h

theorem spec_decides {c : Prop} (decides : Decides P c m Q) : Spec P m Q fun _ => True := by
  intro s before
  rcases decides s before with ⟨-, a, s', run, post⟩ | ⟨-, e, s', run⟩
  · rw [run]
    exact post
  · rw [run]
    trivial

/-- A program that surely returns meets any condition on how it halts. -/
theorem spec_sure (decides : Decides P True m Q) : Spec P m Q E := by
  intro s before
  rcases decides s before with ⟨-, a, s', run, post⟩ | ⟨never, -⟩
  · rw [run]
    exact post
  · exact absurd trivial never

theorem decides_sure (spec : Spec P m Q fun _ => False) : Decides P True m Q :=
  fun _ before => Or.inl ⟨trivial, spec_returns spec before⟩

theorem spec_halts (halts : Decides P False m Q) (keeps : Keeps I m) :
    Spec (fun s => P s ∧ I s) m (fun _ _ => False) I := by
  rintro s ⟨before, held⟩
  rcases halts s before with ⟨never, -⟩ | ⟨-, e, s', run⟩
  · exact never.elim
  · rw [run]
    exact spec_error keeps held run

theorem decides_pure {a : α} (h : ∀ s, P s → Q a s) :
    Decides P True (pure a : EStateM ε σ α) Q :=
  fun s before => Or.inl ⟨trivial, a, s, rfl, h s before⟩

theorem decides_modify {f : σ → σ} {R : Unit → σ → Prop} (h : ∀ s, P s → R () (f s)) :
    Decides P True (modify f : EStateM ε σ Unit) R :=
  fun s before => Or.inl ⟨trivial, (), f s, rfl, h s before⟩

theorem decides_bind {c d : Prop} {R : β → σ → Prop} {f : α → EStateM ε σ β}
    (first : Decides P c m Q) (rest : ∀ a, Decides (Q a) d (f a) R) :
    Decides P (c ∧ d) (m >>= f) R := by
  intro s before
  rcases first s before with ⟨hc, a, s', run, mid⟩ | ⟨hc, e, s', run⟩
  · rcases rest a s' mid with ⟨hd, b, s'', run', post⟩ | ⟨hd, e, s'', run'⟩
    · exact Or.inl ⟨⟨hc, hd⟩, b, s'', by rw [bind_ok run, run'], post⟩
    · exact Or.inr ⟨fun both => hd both.2, e, s'', by rw [bind_ok run, run']⟩
  · exact Or.inr ⟨fun both => hc both.1, e, s', bind_error run⟩

theorem decides_halt {R : β → σ → Prop} {f : α → EStateM ε σ β} (first : Decides P False m Q) :
    Decides P False (m >>= f) R := by
  intro s before
  rcases first s before with ⟨never, -⟩ | ⟨no, e, s', run⟩
  · exact never.elim
  · exact Or.inr ⟨no, e, s', bind_error run⟩

theorem decides_get {c : Prop} {f : σ → EStateM ε σ α}
    (h : ∀ s, P s → Decides (fun s' => s' = s) c (f s) Q) : Decides P c (get >>= f) Q :=
  fun s before => h s before s rfl

theorem decides_copy {c : Prop} {f : σ → EStateM ε σ α} (h : ∀ s, P s → Decides P c (f s) Q) :
    Decides P c (get >>= f) Q :=
  fun s before => h s before s before

theorem decides_weaken {c d : Prop} (decides : Decides P c m Q) (same : c ↔ d)
    (pre : ∀ s, P' s → P s) (post : ∀ a s, Q a s → Q' a s) : Decides P' d m Q' := by
  intro s before
  rcases decides s (pre s before) with ⟨hc, a, s', run, mid⟩ | ⟨hc, e, s', run⟩
  · exact Or.inl ⟨same.mp hc, a, s', run, post a s' mid⟩
  · exact Or.inr ⟨fun hd => hc (same.mpr hd), e, s', run⟩

theorem decides_fact {c F : Prop} (h : F → Decides P c m Q) : Decides (fun s => F ∧ P s) c m Q :=
  fun s before => h before.1 s before.2

/-- What the program keeps anyway can be added to what it is decided from. -/
theorem decides_keeps {c : Prop} (decides : Decides P c m Q) (keeps : Keeps I m) :
    Decides (fun s => P s ∧ I s) c m fun a s => Q a s ∧ I s := by
  rintro s ⟨before, held⟩
  rcases decides s before with ⟨hc, a, s', run, post⟩ | halts
  · exact Or.inl ⟨hc, a, s', run, post, spec_ok keeps held run⟩
  · exact Or.inr halts

/-- A program that surely returns, and keeps `I` on the way. -/
abbrev Completes (I : σ → Prop) (m : EStateM ε σ α) : Prop := Decides I True m (fun _ => I)

theorem completes_bind {f : α → EStateM ε σ β} (first : Completes I m)
    (rest : ∀ a, Completes I (f a)) : Completes I (m >>= f) :=
  decides_weaken (decides_bind first rest) (and_self_iff) (fun _ held => held) (fun _ _ held => held)

/-- A sequence of events, each handled to its end; one that halts ends the sequence. -/
def runAll (step : ι → EStateM ε σ Unit) : List ι → EStateM ε σ Unit
  | [] => pure ()
  | e :: es => do
    step e
    runAll step es

theorem runAll_append (step : ι → EStateM ε σ Unit) (es fs : List ι) :
    runAll step (es ++ fs) = runAll step es >>= fun _ => runAll step fs := by
  induction es with
  | nil => rfl
  | cons e es ih =>
    rw [List.cons_append, runAll, ih, runAll, bind_assoc]

theorem spec_runAll {step : ι → EStateM ε σ Unit} {es : List ι}
    (each : ∀ e ∈ es, Spec I (step e) (fun _ => I) E) : Spec I (runAll step es) (fun _ => I) E := by
  induction es with
  | nil => exact spec_pure fun _ held => held
  | cons e es ih =>
    exact spec_bind (each e List.mem_cons_self)
      fun _ => ih fun e' member => each e' (List.mem_cons_of_mem _ member)

theorem keeps_runAll {step : ι → EStateM ε σ Unit} {es : List ι} (each : ∀ e ∈ es, Keeps I (step e)) :
    Keeps I (runAll step es) :=
  spec_runAll each

/-- Every event of the sequence meets its condition in the state it is handled in. -/
def Along (ok : ι → σ → Prop) (step : ι → EStateM ε σ Unit) : List ι → σ → Prop
  | [], _ => True
  | e :: es, s => ok e s ∧ ∀ s', step e s = .ok () s' → Along ok step es s'

theorem along_always {ok : ι → σ → Prop} {step : ι → EStateM ε σ Unit} {es : List ι} (s : σ)
    (always : ∀ e ∈ es, ∀ s, ok e s) : Along ok step es s := by
  induction es generalizing s with
  | nil => trivial
  | cons e es ih =>
    refine ⟨always e List.mem_cons_self s, fun s' _ => ?_⟩
    exact ih s' fun e' member => always e' (List.mem_cons_of_mem _ member)

/-- What each event preserves where it meets its condition, a run along the condition preserves. -/
theorem spec_along {ok : ι → σ → Prop} {step : ι → EStateM ε σ Unit} {es : List ι}
    (each : ∀ e ∈ es, Spec (fun s => ok e s ∧ I s) (step e) (fun _ => I) E) :
    Spec (fun s => Along ok step es s ∧ I s) (runAll step es) (fun _ => I) E := by
  induction es with
  | nil => exact spec_pure fun _ held => held.2
  | cons e es ih =>
    rintro s ⟨⟨here, later⟩, held⟩
    have handled := each e List.mem_cons_self s ⟨here, held⟩
    have rest := ih fun e' member => each e' (List.mem_cons_of_mem _ member)
    rw [runAll]
    cases run : step e s with
    | ok a s' =>
      rw [run] at handled
      rw [bind_ok run]
      exact rest s' ⟨later s' run, handled⟩
    | error halt s' =>
      rw [run] at handled
      rw [bind_error run]
      exact handled

theorem runAll_map {ι' : Type} (step : ι → EStateM ε σ Unit) (f : ι' → ι) (es : List ι') :
    runAll step (es.map f) = runAll (fun e => step (f e)) es := by
  induction es with
  | nil => rfl
  | cons e es ih => rw [List.map_cons, runAll, runAll, ih]

/-- Every event is admitted in the phase the events before it lead to. -/
def Passes (ok : κ → ι → Prop) (next : κ → ι → κ) : κ → List ι → Prop
  | _, [] => True
  | k, e :: es => ok k e ∧ Passes ok next (next k e) es

theorem passes_append {ok : κ → ι → Prop} {next : κ → ι → κ} {k : κ} {es fs : List ι} :
    Passes ok next k (es ++ fs) ↔ Passes ok next k es ∧ Passes ok next (es.foldl next k) fs := by
  induction es generalizing k with
  | nil => simp [Passes]
  | cons e es ih =>
    rw [List.cons_append, Passes, ih, Passes, and_assoc]
    rfl

theorem passes_always {ok : κ → ι → Prop} {next : κ → ι → κ} {es : List ι} (k : κ)
    (always : ∀ e ∈ es, ∀ k, ok k e) : Passes ok next k es := by
  induction es generalizing k with
  | nil => trivial
  | cons e es ih =>
    exact ⟨always e List.mem_cons_self k, ih _ fun e' member => always e' (List.mem_cons_of_mem _ member)⟩

theorem foldl_grows {next : Nat → ι → Nat} (grows : ∀ k e, k ≤ next k e) (k : Nat) (es : List ι) :
    k ≤ es.foldl next k := by
  induction es generalizing k with
  | nil => exact Nat.le_refl k
  | cons e es ih => exact (grows k e).trans (ih (next k e))

/-- A measure that no event lowers stays within its last value. -/
theorem passes_below {next : Nat → ι → Nat} (grows : ∀ k e, k ≤ next k e) (k : Nat) (es : List ι) :
    Passes (fun j e => next j e ≤ es.foldl next k) next k es := by
  induction es generalizing k with
  | nil => trivial
  | cons e es ih => exact ⟨foldl_grows grows (next k e) es, ih (next k e)⟩

theorem passes_with {ok : κ → ι → Prop} {next : κ → ι → κ} {P : ι → Prop} {es : List ι} {k : κ}
    (passes : Passes ok next k es) (each : ∀ e ∈ es, P e) :
    Passes (fun k e => ok k e ∧ P e) next k es := by
  induction es generalizing k with
  | nil => trivial
  | cons e es ih =>
    obtain ⟨here, later⟩ := passes
    exact ⟨⟨here, each e List.mem_cons_self⟩, ih later fun e' member => each e' (List.mem_cons_of_mem _ member)⟩

/-- What each event takes from its phase to the next, a sequence takes from the first to the last. -/
theorem spec_passes {I : κ → σ → Prop} {ok : κ → ι → Prop} {next : κ → ι → κ}
    {step : ι → EStateM ε σ Unit} {es : List ι} {k : κ} (passes : Passes ok next k es)
    (each : ∀ e ∈ es, ∀ k, ok k e → Spec (I k) (step e) (fun _ => I (next k e)) E) :
    Spec (I k) (runAll step es) (fun _ => I (es.foldl next k)) E := by
  induction es generalizing k with
  | nil => exact spec_pure fun _ held => held
  | cons e es ih =>
    obtain ⟨here, later⟩ := passes
    apply spec_bind (each e List.mem_cons_self k here)
    intro _
    exact ih later fun e' member => each e' (List.mem_cons_of_mem _ member)

theorem completes_runAll {step : ι → EStateM ε σ Unit} {es : List ι}
    (each : ∀ e ∈ es, Completes I (step e)) : Completes I (runAll step es) := by
  induction es with
  | nil => exact decides_pure fun _ held => held
  | cons e es ih =>
    exact completes_bind (each e List.mem_cons_self)
      fun _ => ih fun e' member => each e' (List.mem_cons_of_mem _ member)

/-- From `P` the run halts for just the reason `o`; without one it returns and meets `Q`. -/
def EndsAs (P : σ → Prop) (o : Option ε) (m : EStateM ε σ α) (Q : α → σ → Prop) : Prop :=
  ∀ s, P s → haltOf (m s) = o ∧ ∀ a s', m s = .ok a s' → Q a s'

theorem endsAs_throw {e : ε} : EndsAs P (some e) (throw e : EStateM ε σ α) Q := by
  intro s _
  refine ⟨rfl, fun a s' returns => ?_⟩
  cases returns

theorem endsAs_returns (decides : Decides P True m Q) : EndsAs P none m Q := by
  intro s before
  rcases decides s before with ⟨-, a, s', run, post⟩ | ⟨never, -⟩
  · rw [run]
    refine ⟨rfl, ?_⟩
    rintro _ _ ⟨⟩
    exact post
  · exact absurd trivial never

theorem endsAs_bind {o o' : Option ε} {R : β → σ → Prop} {f : α → EStateM ε σ β} (first : EndsAs P o m Q)
    (rest : ∀ a, EndsAs (Q a) o' (f a) R) : EndsAs P (o.or o') (m >>= f) R := by
  intro s before
  obtain ⟨halt, post⟩ := first s before
  cases run : m s with
  | ok a s' =>
    rw [run] at halt post
    obtain ⟨halt', post'⟩ := rest a s' (post a s' rfl)
    rw [bind_ok run, ← halt]
    exact ⟨halt', post'⟩
  | error e s' =>
    rw [run] at halt
    rw [bind_error run, ← halt]
    refine ⟨rfl, fun a s' returns => ?_⟩
    cases returns

/-- Nothing comes before the reason but what surely returns. -/
theorem endsAs_then {o : Option ε} {R : β → σ → Prop} {f : α → EStateM ε σ β} (first : Decides P True m Q)
    (rest : ∀ a, EndsAs (Q a) o (f a) R) : EndsAs P o (m >>= f) R := by
  have both := endsAs_bind (endsAs_returns first) rest
  rwa [Option.none_or] at both

/-- What comes after a program that halts is not reached. -/
theorem endsAs_stop {e : ε} {R : β → σ → Prop} {f : α → EStateM ε σ β}
    (first : EndsAs P (some e) m fun _ _ => False) : EndsAs P (some e) (m >>= f) R := by
  have both : EndsAs P ((some e).or none) (m >>= f) R := endsAs_bind first fun _ _ never => never.elim
  rwa [Option.some_or] at both

theorem decides_ends {e : ε} (ends : EndsAs P (some e) m fun _ _ => False) : Decides P False m Q := by
  intro s before
  obtain ⟨s', halts⟩ := haltOf_error (ends s before).1
  exact Or.inr ⟨id, e, s', halts⟩

theorem endsAs_weaken {o : Option ε} (ends : EndsAs P o m Q) (pre : ∀ s, P' s → P s) (post : ∀ a s, Q a s → Q' a s) :
    EndsAs P' o m Q' :=
  fun s before => ⟨(ends s (pre s before)).1, fun a s' returns => post a s' ((ends s (pre s before)).2 a s' returns)⟩

theorem endsAs_fact {o : Option ε} {F : Prop} (h : F → EndsAs P o m Q) : EndsAs (fun s => F ∧ P s) o m Q :=
  fun s before => h before.1 s before.2

/-- What the program keeps anyway is there when it returns. -/
theorem endsAs_keeps {o : Option ε} (ends : EndsAs P o m Q) (keeps : Keeps I m) :
    EndsAs (fun s => P s ∧ I s) o m fun a s => Q a s ∧ I s := by
  rintro s ⟨before, held⟩
  obtain ⟨halt, post⟩ := ends s before
  exact ⟨halt, fun a s' returns => ⟨post a s' returns, spec_ok keeps held returns⟩⟩

/-- A sequence of events halts for the reason of the first that has one. -/
theorem endsAs_runAll {reason : ι → Option ε} {step : ι → EStateM ε σ Unit} {es : List ι}
    (each : ∀ e ∈ es, EndsAs I (reason e) (step e) fun _ => I) :
    EndsAs I (es.findSome? reason) (runAll step es) fun _ => I := by
  induction es with
  | nil => exact endsAs_returns (decides_pure fun _ held => held)
  | cons e es ih =>
    have rest := ih fun e' member => each e' (List.mem_cons_of_mem _ member)
    have both := endsAs_bind (each e List.mem_cons_self) fun _ => rest
    rw [List.findSome?_cons]
    cases first : reason e with
    | none =>
      rw [first, Option.none_or] at both
      exact both
    | some halt =>
      rw [first, Option.some_or] at both
      exact both

end Rules

end Newplat.Base
