import Newplat.Base.Runs

/-! Two programs side by side, over states of their own: they return together or halt for the
same reason, and their states stay related. -/
namespace Newplat.Base

section Pairs

variable {σ τ ε α β γ δ ι : Type}

def Simulates (P : σ → τ → Prop) (m : EStateM ε σ α) (n : EStateM ε τ β) (Q : α → β → σ → τ → Prop)
    (E : σ → τ → Prop) : Prop :=
  ∀ s t, P s t → match m s, n t with
    | .ok a s', .ok b t' => Q a b s' t'
    | .error e s', .error e' t' => e = e' ∧ E s' t'
    | _, _ => False

/-- Both return the same, and what related their states does so again. -/
def Agree (R : σ → τ → Prop) (m : EStateM ε σ α) (n : EStateM ε τ α) (E : σ → τ → Prop) : Prop :=
  Simulates R m n (fun a b s t => a = b ∧ R s t) E

variable {P P' R E E' : σ → τ → Prop} {Q Q' : α → β → σ → τ → Prop} {m : EStateM ε σ α} {n : EStateM ε τ β}

theorem simulates_ok (pair : Simulates P m n Q E) {s s' : σ} {t : τ} {a : α} (related : P s t)
    (returns : m s = .ok a s') : ∃ b t', n t = .ok b t' ∧ Q a b s' t' := by
  have both := pair s t related
  rw [returns] at both
  cases run : n t with
  | ok b t' =>
    rw [run] at both
    exact ⟨b, t', rfl, both⟩
  | error e t' =>
    rw [run] at both
    exact both.elim

theorem simulates_error (pair : Simulates P m n Q E) {s s' : σ} {t : τ} {e : ε} (related : P s t)
    (halts : m s = .error e s') : ∃ t', n t = .error e t' ∧ E s' t' := by
  have both := pair s t related
  rw [halts] at both
  cases run : n t with
  | ok b t' =>
    rw [run] at both
    exact both.elim
  | error e' t' =>
    rw [run] at both
    obtain ⟨rfl, left⟩ := both
    exact ⟨t', rfl, left⟩

theorem simulates_pure {a : α} {b : β} (post : ∀ s t, P s t → Q a b s t) :
    Simulates P (pure a : EStateM ε σ α) (pure b : EStateM ε τ β) Q E :=
  fun s t related => post s t related

theorem simulates_throw {e : ε} (post : ∀ s t, P s t → E s t) :
    Simulates P (throw e : EStateM ε σ α) (throw e : EStateM ε τ β) Q E :=
  fun s t related => ⟨rfl, post s t related⟩

theorem simulates_modify {f : σ → σ} {g : τ → τ} {Q : Unit → Unit → σ → τ → Prop}
    (post : ∀ s t, P s t → Q () () (f s) (g t)) :
    Simulates P (modify f : EStateM ε σ Unit) (modify g : EStateM ε τ Unit) Q E :=
  fun s t related => post s t related

theorem simulates_bind {Q : γ → δ → σ → τ → Prop} {R : α → β → σ → τ → Prop} {m : EStateM ε σ γ} {n : EStateM ε τ δ}
    {f : γ → EStateM ε σ α} {g : δ → EStateM ε τ β} (first : Simulates P m n Q E)
    (rest : ∀ c d, Simulates (Q c d) (f c) (g d) R E) : Simulates P (m >>= f) (n >>= g) R E := by
  intro s t related
  cases run : m s with
  | ok c s' =>
    obtain ⟨d, t', run', post⟩ := simulates_ok first related run
    rw [bind_ok run, bind_ok run']
    exact rest c d s' t' post
  | error e s' =>
    obtain ⟨t', run', left⟩ := simulates_error first related run
    rw [bind_error run, bind_error run']
    exact ⟨rfl, left⟩

theorem simulates_get {f : σ → EStateM ε σ α} {g : τ → EStateM ε τ β}
    (each : ∀ s t, P s t → Simulates (fun s' t' => s' = s ∧ t' = t) (f s) (g t) Q E) :
    Simulates P (get >>= f) (get >>= g) Q E :=
  fun s t related => each s t related s t ⟨rfl, rfl⟩

/-- The copies are related as the states are. -/
theorem simulates_copy {f : σ → EStateM ε σ α} {g : τ → EStateM ε τ β}
    (each : ∀ s t, P s t → Simulates P (f s) (g t) Q E) : Simulates P (get >>= f) (get >>= g) Q E :=
  fun s t related => each s t related s t related

/-- A step of the left program alone, which surely returns. -/
theorem simulates_left {Q' : γ → σ → τ → Prop} {m : EStateM ε σ γ} {f : γ → EStateM ε σ α}
    (first : ∀ s t, P s t → ∃ c s', m s = .ok c s' ∧ Q' c s' t)
    (rest : ∀ c, Simulates (Q' c) (f c) n Q E) : Simulates P (m >>= f) n Q E := by
  intro s t related
  obtain ⟨c, s', run, post⟩ := first s t related
  rw [bind_ok run]
  exact rest c s' t post

/-- The left program goes on alone, and surely returns. -/
theorem simulates_then {Q : γ → β → σ → τ → Prop} {R : α → β → σ → τ → Prop} {m : EStateM ε σ γ} {f : γ → EStateM ε σ α}
    (first : Simulates P m n Q E) (runs : ∀ c b s t, Q c b s t → ∃ a s', f c s = .ok a s' ∧ R a b s' t) :
    Simulates P (m >>= f) n R E := by
  intro s t related
  cases run : m s with
  | ok c s' =>
    obtain ⟨b, t', run', mid⟩ := simulates_ok first related run
    obtain ⟨a, s'', run'', post⟩ := runs c b s' t' mid
    rw [bind_ok run, run', run'']
    exact post
  | error e s' =>
    obtain ⟨t', run', left⟩ := simulates_error first related run
    rw [bind_error run, run']
    exact ⟨rfl, left⟩

theorem simulates_weaken (pair : Simulates P m n Q E) (pre : ∀ s t, P' s t → P s t)
    (post : ∀ a b s t, Q a b s t → Q' a b s t) (halt : ∀ s t, E s t → E' s t) : Simulates P' m n Q' E' := by
  intro s t related
  cases run : m s with
  | ok a s' =>
    obtain ⟨b, t', run', held⟩ := simulates_ok pair (pre s t related) run
    rw [run']
    exact post a b s' t' held
  | error e s' =>
    obtain ⟨t', run', left⟩ := simulates_error pair (pre s t related) run
    rw [run']
    exact ⟨rfl, halt s' t' left⟩

/-- Both go on from one result. -/
theorem simulates_same {m : EStateM ε σ γ} {n : EStateM ε τ γ} {f : γ → EStateM ε σ α} {g : γ → EStateM ε τ β}
    (first : Simulates P m n (fun c d s t => c = d ∧ R s t) E) (rest : ∀ c, Simulates R (f c) (g c) Q E) :
    Simulates P (m >>= f) (n >>= g) Q E := by
  apply simulates_bind first
  rintro c d s t ⟨rfl, related⟩
  exact rest c s t related

theorem agree_bind {m : EStateM ε σ γ} {n : EStateM ε τ γ} {f : γ → EStateM ε σ α} {g : γ → EStateM ε τ β}
    (first : Agree R m n E) (rest : ∀ c, Simulates R (f c) (g c) Q E) : Simulates R (m >>= f) (n >>= g) Q E :=
  simulates_same first rest

theorem agree_pure (a : α) : Agree R (pure a : EStateM ε σ α) (pure a : EStateM ε τ α) E :=
  simulates_pure fun _ _ related => ⟨rfl, related⟩

theorem agree_runAll {step : ι → EStateM ε σ Unit} {step' : ι → EStateM ε τ Unit} {es : List ι}
    (each : ∀ e ∈ es, Agree R (step e) (step' e) E) : Agree R (runAll step es) (runAll step' es) E := by
  induction es with
  | nil => exact agree_pure ()
  | cons e es ih =>
    apply agree_bind (each e List.mem_cons_self)
    intro _
    exact ih fun e' member => each e' (List.mem_cons_of_mem _ member)

end Pairs

end Newplat.Base
