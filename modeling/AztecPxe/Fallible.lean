import Mathlib

/-! Computations that may fail: when a sequence, a mapped result and a loop over
a list succeed, and what their parts did then. -/
namespace AztecPxe
variable {ε α β : Type}

@[simp] theorem ok_bind (a : α) (next : α → Except ε β) : (Except.ok a >>= next) = next a := rfl

@[simp] theorem error_bind (e : ε) (next : α → Except ε β) :
    (Except.error e >>= next) = .error e := rfl

/-- A sequence succeeds when its first part does and then its second. -/
theorem bind_eq_ok {first : Except ε α} {second : α → Except ε β} {b : β} :
    first >>= second = .ok b ↔ ∃ a, first = .ok a ∧ second a = .ok b := by
  cases first with
  | error e =>
    constructor
    · intro failed
      cases failed
    · rintro ⟨a, done, -⟩
      cases done
  | ok a =>
    constructor
    · intro done
      exact ⟨a, rfl, done⟩
    · rintro ⟨a', same, done⟩
      cases same
      exact done

/-- A mapped result comes from a result. -/
theorem map_eq_ok {first : Except ε α} {f : α → β} {b : β} (done : first.map f = .ok b) :
    ∃ a, first = .ok a ∧ f a = b := by
  cases first with
  | error e => cases done
  | ok a => exact ⟨a, rfl, Except.ok.inj done⟩

/-- A loop whose steps all succeed collects what they return. -/
theorem mapM_eq_ok {f : α → Except ε β} {g : α → β} {items : List α}
    (each : ∀ a ∈ items, f a = .ok (g a)) : items.mapM f = .ok (items.map g) := by
  induction items with
  | nil => rfl
  | cons a rest ih =>
    have first := each a List.mem_cons_self
    have later := ih (fun b inside => each b (List.mem_cons_of_mem a inside))
    rw [List.mapM_cons, first, later]
    rfl

/-- A loop that succeeds has succeeded on the first entry and on the others. -/
theorem mapM_cons_eq_ok {f : α → Except ε β} {a : α} {rest : List α} {found : List β}
    (done : (a :: rest).mapM f = .ok found) :
    ∃ b bs, f a = .ok b ∧ rest.mapM f = .ok bs ∧ found = b :: bs := by
  rw [List.mapM_cons] at done
  obtain ⟨b, first, done⟩ := bind_eq_ok.mp done
  obtain ⟨bs, later, done⟩ := bind_eq_ok.mp done
  cases done
  exact ⟨b, bs, first, later, rfl⟩

/-- A loop that succeeds pairs every entry with what it made of it. -/
theorem mapM_paired {f : α → Except ε β} {items : List α} {found : List β}
    (done : items.mapM f = .ok found) : List.Forall₂ (fun a b => f a = .ok b) items found := by
  induction items generalizing found with
  | nil =>
    cases done
    exact .nil
  | cons first rest ih =>
    obtain ⟨b, bs, made, later, rfl⟩ := mapM_cons_eq_ok done
    exact .cons made (ih later)

/-- A loop that succeeds has collected what every entry gives. -/
theorem mapM_each {f : α → Except ε β} {items : List α} {found : List β}
    (done : items.mapM f = .ok found) {a : α} (inside : a ∈ items) : ∃ b ∈ found, f a = .ok b := by
  induction items generalizing found with
  | nil => cases inside
  | cons first rest ih =>
    obtain ⟨b, bs, made, later, rfl⟩ := mapM_cons_eq_ok done
    rcases List.mem_cons.mp inside with rfl | inside
    · exact ⟨b, List.mem_cons_self, made⟩
    · obtain ⟨c, collected, made⟩ := ih later inside
      exact ⟨c, List.mem_cons_of_mem b collected, made⟩

end AztecPxe
