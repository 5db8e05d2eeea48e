import Newplat.Base.Runs

/-! A loop of timers around programs. The loop fires the pending timer with the earliest
expiry, of several the one armed first; a handler arms timers while its own time passes. -/
namespace Newplat.Base

structure Timeout (τ : Type) where
  timer : τ
  expiry : Int

/-- `pending` is in the order of arming. -/
structure Timeouts (τ : Type) where
  now : Int
  pending : List (Timeout τ)

namespace Timeouts

variable {τ : Type} [DecidableEq τ]

def next (l : Timeouts τ) : Option (Timeout τ) := l.pending.minOn? Timeout.expiry

/-- The timer is taken off and its handler starts, `late` after it could have. -/
def fire (l : Timeouts τ) (t : Timeout τ) (late : Nat) : Timeouts τ :=
  ⟨max l.now t.expiry + late, l.pending.filter fun u => u.timer ≠ t.timer⟩

/-- Arming a timer after some time; one that is pending loses its old place. -/
def set (l : Timeouts τ) (gap : Nat) (timer : τ) (msecs : Int) : Timeouts τ :=
  ⟨l.now + gap, (l.pending.filter fun u => u.timer ≠ timer) ++ [⟨timer, l.now + gap + msecs⟩]⟩

def setAll (l : Timeouts τ) (gaps : Nat → Nat) (k : Nat) : List (τ × Int) → Timeouts τ
  | [] => l
  | (timer, msecs) :: sets => (l.set (gaps k) timer msecs).setAll gaps (k + 1) sets

def Pending (timer : τ) (l : Timeouts τ) : Prop := ∃ t ∈ l.pending, t.timer = timer

/-- No pending timer is further ahead than this. -/
def Within (msecs : Int) (l : Timeouts τ) : Prop := ∀ t ∈ l.pending, t.expiry ≤ l.now + msecs

variable {l : Timeouts τ} {timer other : τ} {msecs bound : Int}

theorem within_fire (soon : l.Within bound) (t : Timeout τ) (late : Nat) : (l.fire t late).Within bound := by
  intro u member
  have old := soon u (List.mem_of_mem_filter member)
  have later : l.now ≤ max l.now t.expiry := le_max_left _ _
  simp only [fire]
  omega

theorem within_set (soon : l.Within bound) (gap : Nat) (timer : τ) (short : msecs ≤ bound) :
    (l.set gap timer msecs).Within bound := by
  intro u member
  simp only [set, List.mem_append, List.mem_singleton] at member
  rcases member with old | rfl
  · have old := soon u (List.mem_of_mem_filter old)
    simp only [set]
    omega
  · simp only [set]
    omega

theorem pending_set (l : Timeouts τ) (gap : Nat) (timer : τ) (msecs : Int) :
    (l.set gap timer msecs).Pending timer :=
  ⟨⟨timer, l.now + gap + msecs⟩, by simp [set], rfl⟩

theorem pending_set_other (armed : l.Pending other) (apart : other ≠ timer) (gap : Nat) (msecs : Int) :
    (l.set gap timer msecs).Pending other := by
  obtain ⟨t, member, rfl⟩ := armed
  exact ⟨t, by simp [set, member, apart], rfl⟩

theorem pending_fire {t : Timeout τ} (armed : l.Pending other) (apart : other ≠ t.timer) (late : Nat) :
    (l.fire t late).Pending other := by
  obtain ⟨u, member, rfl⟩ := armed
  exact ⟨u, by simp [fire, member, apart], rfl⟩

/-- What has just been armed is not next while another timer expires no later. -/
theorem next_set (armed : l.Pending other) (apart : other ≠ timer) (soon : l.Within msecs) (gap : Nat) :
    ∃ t, (l.set gap timer msecs).next = some t ∧ t.timer ≠ timer := by
  obtain ⟨u, member, rfl⟩ := armed
  let rest := l.pending.filter fun u => u.timer ≠ timer
  have inside : u ∈ rest := by simp [rest, member, apart]
  have least := List.apply_get_minOn?_le_of_mem (f := Timeout.expiry) inside
  cases first : rest.minOn? Timeout.expiry with
  | none =>
    have found := List.isSome_minOn?_of_mem (f := Timeout.expiry) inside
    rw [first] at found
    cases found
  | some t =>
    have kept : t ∈ rest := List.minOn?_mem first
    have early := soon u member
    simp only [first, Option.get_some] at least
    have stays : t.expiry ≤ l.now + gap + msecs := by omega
    have next : (l.set gap timer msecs).next = some t := by
      simp only [next, set, List.minOn?_append, List.minOn?_singleton]
      rw [first, Option.merge_some_some, minOn_eq_left stays]
    exact ⟨t, next, by simpa using (List.mem_filter.mp kept).2⟩

/-- A timer armed anew for `msecs` by each of its firings, after `n` of them: the clock and its
next expiry are behind the even pace by no more than what has been lost, and never ahead of it. -/
structure Paced (timer : τ) (start msecs : Int) (lost n : Nat) (l : Timeouts τ) : Prop where
  passed : start + msecs * n ≤ l.now
  behind : l.now ≤ start + msecs * (n + 1) + lost
  due : ∀ t ∈ l.pending, t.timer = timer →
    start + msecs * (n + 1) ≤ t.expiry ∧ t.expiry ≤ start + msecs * (n + 1) + lost

omit [DecidableEq τ] in
theorem next_least {t u : Timeout τ} (first : l.next = some t) (member : u ∈ l.pending) : t.expiry ≤ u.expiry := by
  have least := List.apply_get_minOn?_le_of_mem (f := Timeout.expiry) member
  simp only [next] at first
  simp only [first, Option.get_some] at least
  exact least

omit [DecidableEq τ] in
theorem next_mem {t : Timeout τ} (first : l.next = some t) : t ∈ l.pending := List.minOn?_mem first

section Pace

variable {t : Timeout τ} {start : Int} {lost n : Nat}

omit [DecidableEq τ] in
theorem paced_more {more : Nat} (paced : l.Paced timer start msecs lost n) (le : lost ≤ more) :
    l.Paced timer start msecs more n where
  passed := paced.passed
  behind := by
    have behind := paced.behind
    omega
  due u member own := by
    have due := paced.due u member own
    omega

/-- The timer's own firing, whose handler has not armed it again. -/
theorem paced_fire (nonneg : 0 ≤ msecs) (paced : l.Paced timer start msecs lost n) (first : l.next = some t)
    (own : t.timer = timer) (late : Nat) : (l.fire t late).Paced timer start msecs (lost + late) (n + 1) := by
  obtain ⟨early, soon⟩ := paced.due t (next_mem first) own
  have behind := paced.behind
  have next : msecs * ((n : Int) + 1 + 1) = msecs * (n + 1) + msecs := by ring
  constructor
  · simp only [fire]
    push_cast
    omega
  · simp only [fire]
    push_cast
    omega
  · rintro u member rfl
    have apart := (List.mem_filter.mp member).2
    simp [own] at apart

theorem paced_again (nonneg : 0 ≤ msecs) (paced : l.Paced timer start msecs lost n) (first : l.next = some t)
    (own : t.timer = timer) (late gap : Nat) :
    ((l.fire t late).set gap timer msecs).Paced timer start msecs (lost + late + gap) (n + 1) := by
  obtain ⟨early, soon⟩ := paced.due t (next_mem first) own
  have behind := paced.behind
  have next : msecs * ((n : Int) + 1 + 1) = msecs * (n + 1) + msecs := by ring
  constructor
  · simp only [set, fire]
    push_cast
    omega
  · simp only [set, fire]
    push_cast
    omega
  · intro u member same
    simp only [set, List.mem_append, List.mem_filter, List.mem_singleton] at member
    rcases member with ⟨-, apart⟩ | rfl
    · exact absurd same (of_decide_eq_true apart)
    · simp only [fire]
      push_cast
      omega

/-- What fires first expires no later. -/
theorem paced_taken (paced : l.Paced timer start msecs lost n) (armed : l.Pending timer)
    (first : l.next = some t) (late : Nat) : (l.fire t late).Paced timer start msecs (lost + late) n := by
  obtain ⟨u, member, own⟩ := armed
  obtain ⟨-, soon⟩ := paced.due u member own
  have least := next_least first member
  have passed := paced.passed
  have behind := paced.behind
  constructor
  · simp only [fire]
    omega
  · simp only [fire]
    push_cast
    omega
  · intro v member own
    have due := paced.due v (List.mem_of_mem_filter member) own
    omega

theorem paced_set_other (paced : l.Paced timer start msecs lost n) (gap : Nat) (bound : Int) (apart : other ≠ timer) :
    (l.set gap other bound).Paced timer start msecs (lost + gap) n := by
  have passed := paced.passed
  have behind := paced.behind
  constructor
  · simp only [set]
    omega
  · simp only [set]
    push_cast
    omega
  · intro u member own
    simp only [set, List.mem_append, List.mem_filter, List.mem_singleton] at member
    rcases member with ⟨old, -⟩ | rfl
    · have due := paced.due u old own
      omega
    · exact absurd own apart

end Pace

end Timeouts

/-- Between any two firings of one timer there is one of the other. -/
def Separated {τ : Type} (a b : τ) (fired : List τ) : Prop :=
  ∀ before between after, fired = before ++ a :: between ++ a :: after → b ∈ between

/-- Since the last firing of one timer the other has fired. -/
def Answered {τ : Type} (a b : τ) (fired : List τ) : Prop :=
  ∀ before since, fired = before ++ a :: since → b ∈ since

section Firings

variable {τ : Type} {a b : τ} {fired : List τ}

theorem answered_snoc (apart : b ≠ a) (fired : List τ) : Answered a b (fired ++ [b]) := by
  intro before since same
  rcases List.eq_nil_or_concat since with rfl | ⟨front, last, rfl⟩
  · have ends := List.append_inj_right' same rfl
    cases ends
    exact absurd rfl apart
  · have ends : fired ++ [b] = (before ++ a :: front) ++ [last] := by simpa using same
    obtain ⟨-, tail⟩ := List.append_inj' ends rfl
    cases tail
    simp

theorem separated_snoc (separated : Separated a b fired) (answered : Answered a b fired) :
    Separated a b (fired ++ [a]) := by
  intro before between after same
  rcases List.eq_nil_or_concat after with rfl | ⟨front, last, rfl⟩
  · obtain ⟨front, -⟩ := List.append_inj' same rfl
    exact answered before between front
  · have ends : fired ++ [a] = (before ++ a :: between ++ a :: front) ++ [last] := by simpa using same
    obtain ⟨whole, -⟩ := List.append_inj' ends rfl
    exact separated before between front whole

theorem separated_other (separated : Separated a b fired) (apart : b ≠ a) : Separated a b (fired ++ [b]) := by
  intro before between after same
  rcases List.eq_nil_or_concat after with rfl | ⟨front, last, rfl⟩
  · obtain ⟨-, tail⟩ := List.append_inj' same rfl
    cases tail
    exact absurd rfl apart
  · have ends : fired ++ [b] = (before ++ a :: between ++ a :: front) ++ [last] := by simpa using same
    obtain ⟨whole, -⟩ := List.append_inj' ends rfl
    exact separated before between front whole

end Firings

/-- A program's state beside the loop's, with what has fired so far. -/
structure Clocked (σ τ : Type) where
  state : σ
  timeouts : Timeouts τ
  fired : List τ

section Loop

variable {σ τ ε α : Type}

def within (m : EStateM ε σ α) : EStateM ε (Clocked σ τ) α := fun c =>
  match m c.state with
  | .ok a s => .ok a { c with state := s }
  | .error e s => .error e { c with state := s }

variable {P E : σ → Prop} {Q : α → σ → Prop} {m : EStateM ε σ α} {l : Timeouts τ} {fired : List τ}

/-- The program's condition, with the loop at rest. -/
def AtRest (l : Timeouts τ) (fired : List τ) (P : σ → Prop) (c : Clocked σ τ) : Prop :=
  P c.state ∧ c.timeouts = l ∧ c.fired = fired

theorem spec_within (spec : Spec P m Q E) :
    Spec (AtRest l fired P) (within m) (fun a => AtRest l fired (Q a)) (AtRest l fired E) := by
  rintro c ⟨held, rest⟩
  have h := spec c.state held
  unfold within
  cases run : m c.state with
  | ok a s =>
    rw [run] at h
    exact ⟨h, rest⟩
  | error e s =>
    rw [run] at h
    exact ⟨h, rest⟩

variable [DecidableEq τ]

/-- `sets` reads the calls that arm a timer off a state's history. What the program added to
them is armed as it goes, with time passing before each call. -/
def timed (sets : σ → List (τ × Int)) (gaps : Nat → Nat) (m : EStateM ε σ α) : EStateM ε (Clocked σ τ) α := do
  let c ← get
  let a ← within m
  modify fun c' => { c' with
    timeouts := c'.timeouts.setAll gaps 0 ((sets c'.state).drop (sets c.state).length) }
  return a

def fireNext (sets : σ → List (τ × Int)) (handler : τ → EStateM ε σ Unit) (late : Nat) (gaps : Nat → Nat) :
    EStateM ε (Clocked σ τ) Unit := do
  let c ← get
  match c.timeouts.next with
  | none => pure ()
  | some t => do
    modify fun c => { c with timeouts := c.timeouts.fire t late, fired := c.fired ++ [t.timer] }
    timed sets gaps (handler t.timer)

theorem spec_timed {sets : σ → List (τ × Int)} {gaps : Nat → Nat} {done added : List (τ × Int)}
    (spec : Spec (fun s => sets s = done ∧ P s) m (fun a s => sets s = done ++ added ∧ Q a s) E) :
    Spec (AtRest l fired fun s => sets s = done ∧ P s) (timed sets gaps m)
      (fun a => AtRest (l.setAll gaps 0 added) fired (Q a)) (AtRest l fired E) := by
  apply spec_get
  rintro c ⟨⟨before, held⟩, loop⟩
  have run : Spec (AtRest l fired fun s => sets s = done ∧ P s) (within m)
      (fun a => AtRest l fired fun s => sets s = done ++ added ∧ Q a s) (AtRest l fired E) := spec_within spec
  apply spec_bind (spec_at run ⟨⟨before, held⟩, loop⟩)
  intro a c' held'
  obtain ⟨⟨after, result⟩, times, firings⟩ := held'
  have new : (sets c'.state).drop (sets c.state).length = added := by
    rw [after, before, List.drop_left]
  refine ⟨result, ?_, firings⟩
  simp only [new, times]

end Loop

end Newplat.Base
