/-! Computations that answer or refuse, one after another. -/

namespace Chip8

variable {ε α β σ : Type}

/-- An answer is passed on to the computation behind it. -/
@[simp]
theorem ok_bind (answer : α) (next : α → Except ε β) :
    (Except.ok answer >>= next) = next answer :=
  rfl

/-- A refusal is passed over the computation behind it. -/
@[simp]
theorem error_bind (refusal : ε) (next : α → Except ε β) :
    ((Except.error refusal : Except ε α) >>= next) = .error refusal :=
  rfl

/-- A plain value is an answer. -/
@[simp]
theorem pure_eq_ok (answer : α) : (pure answer : Except ε α) = .ok answer :=
  rfl

/-- A computation in two parts answers only if both parts do. -/
theorem bind_eq_ok {first : Except ε α} {next : α → Except ε β} {answer : β} :
    (first >>= next) = .ok answer ↔ ∃ middle, first = .ok middle ∧ next middle = .ok answer := by
  -- A refusal of the first part is the whole answer.
  cases first <;> simp

/-- A computation in two parts refuses if its first part does, or else its second. -/
theorem bind_eq_error {first : Except ε α} {next : α → Except ε β} {refusal : ε} :
    (first >>= next) = .error refusal ↔
      first = .error refusal ∨ ∃ middle, first = .ok middle ∧ next middle = .error refusal := by
  -- The second part runs only behind an answer of the first.
  cases first <;> simp

/-- A changed answer is the change of an answer. -/
theorem map_eq_ok {first : Except ε α} {change : α → β} {answer : β} :
    first.map change = .ok answer ↔ ∃ middle, first = .ok middle ∧ change middle = answer := by
  -- A refusal is never changed into an answer.
  cases first with
  | ok middle => simp [Except.map]
  | error refusal => simp [Except.map]

/-- Changing answers keeps every refusal. -/
theorem map_eq_error {first : Except ε α} {change : α → β} {refusal : ε} :
    first.map change = .error refusal ↔ first = .error refusal := by
  -- Only answers meet the change.
  cases first with
  | ok middle => simp [Except.map]
  | error refusal => simp [Except.map]

/-- A computation that answers is its answer, whatever a refusal would be replaced by. -/
theorem eq_ok_getD {first : Except ε α} (answers : first.isOk = true) (other : α) :
    first = .ok (first.toOption.getD other) := by
  cases first with
  | ok answer => rfl
  | error refusal => cases answers

/-- An attempt on a state leaves it as it was if it is refused. -/
def Atomic (state : σ) (attempt : Except ε Unit × σ) : Prop :=
  ∀ refusal left, attempt = (.error refusal, left) → left = state

/-- What an attempt leaves has a property of the state and of all that the attempt can make. -/
theorem Atomic.keeps {state : σ} {attempt : Except ε Unit × σ} {property : σ → Prop}
    (atomic : Atomic state attempt) (kept : property state)
    (made : ∀ left, attempt = (.ok (), left) → property left) : property attempt.2 := by
  -- A refused attempt has left the state, which has the property.
  rcases attempt with ⟨refusal | ⟨⟩, left⟩
  · exact atomic refusal left rfl ▸ kept
  · exact made left rfl

/-- Changing refusals keeps every answer. -/
theorem mapError_eq_ok {δ : Type} {first : Except ε α} {change : ε → δ} {answer : α} :
    first.mapError change = .ok answer ↔ first = .ok answer := by
  -- Both cases hold by computation.
  cases first with
  | ok middle => exact ⟨fun same => congrArg Except.ok (Except.ok.inj same), fun same => same ▸ rfl⟩
  | error refusal => exact ⟨fun same => (nomatch same), fun same => (nomatch same)⟩

/-- A changed refusal is refused for the same reason. -/
theorem mapError_eq_error {δ : Type} {first : Except ε α} {change : ε → δ} {refusal : δ} :
    first.mapError change = .error refusal ↔
      ∃ cause, first = .error cause ∧ change cause = refusal := by
  -- Only a refusal is changed.
  cases first with
  | ok middle =>
    constructor
    · intro same
      cases same
    · rintro ⟨cause, same, -⟩
      cases same
  | error cause =>
    constructor
    · intro same
      exact ⟨cause, rfl, Except.error.inj same⟩
    · rintro ⟨other, same, rfl⟩
      rw [Except.error.inj same]
      rfl

end Chip8
