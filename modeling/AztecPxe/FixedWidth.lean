import Mathlib.Data.List.Basic

/-! Writers of fixed width. Words that are put one after the other without their lengths
can be told apart when every part always takes the same space; what a composed writer tells
about a value is then what its parts tell. -/
namespace AztecPxe.FixedWidth

variable {α β γ γ' δ : Type}

/-- What is written of every item of a list, at a fixed width. -/
theorem length_flatMap_fixed {write : α → List β} {width : Nat} (items : List α)
    (fixed : ∀ item ∈ items, (write item).length = width) :
    (items.flatMap write).length = items.length * width := by
  induction items with
  | nil => exact (Nat.zero_mul width).symm
  | cons item rest ih =>
    have later := ih (fun other inside => fixed other (List.mem_cons_of_mem _ inside))
    rw [List.flatMap_cons, List.length_append, fixed item List.mem_cons_self, later,
      List.length_cons, Nat.succ_mul, Nat.add_comm]

/-- The words of valid values have this length, and two are the same exactly when what they
tell is. -/
structure Tells (width : Nat) (Valid : α → Prop) (write : α → List β) (told : α → γ) : Prop where
  length : ∀ {a}, Valid a → (write a).length = width
  eq_iff : ∀ {a b}, Valid a → Valid b → (write a = write b ↔ told a = told b)

namespace Tells
variable {width width' : Nat} {Valid : α → Prop} {write later : α → List β}
variable {told : α → γ} {told' : α → γ'}

/-- One word after the other tells both. -/
theorem append (first : Tells width Valid write told) (second : Tells width' Valid later told') :
    Tells (width + width') Valid (fun a => write a ++ later a) (fun a => (told a, told' a)) where
  length valid := by rw [List.length_append, first.length valid, second.length valid]
  eq_iff validA validB := by
    rw [Prod.mk.injEq, ← first.eq_iff validA validB, ← second.eq_iff validA validB]
    constructor
    · intro same
      exact List.append_inj same ((first.length validA).trans (first.length validB).symm)
    · rintro ⟨front, back⟩
      rw [front, back]

/-- The word of a part of the value. -/
theorem comap (tells : Tells width Valid write told) {Valid' : δ → Prop} (part : δ → α)
    (valid : ∀ {d}, Valid' d → Valid (part d)) :
    Tells width Valid' (fun d => write (part d)) (fun d => told (part d)) where
  length validA := tells.length (valid validA)
  eq_iff validA validB := tells.eq_iff (valid validA) (valid validB)

/-- What is told may be put in another way. -/
theorem congr (tells : Tells width Valid write told)
    (same : ∀ {a b}, Valid a → Valid b → (told a = told b ↔ told' a = told' b)) :
    Tells width Valid write told' where
  length := tells.length
  eq_iff validA validB := (tells.eq_iff validA validB).trans (same validA validB)

/-- The words of so many values in a row tell them all. -/
theorem flatMap (tells : Tells width Valid write told) (count : Nat) :
    Tells (count * width) (fun items : List α => items.length = count ∧ ∀ a ∈ items, Valid a)
      (fun items => items.flatMap write) (fun items => items.map told) where
  length {items} valid := by
    rw [length_flatMap_fixed items (fun a inside => tells.length (valid.2 a inside)), valid.1]
  eq_iff {items others} valid valid' := by
    obtain ⟨rfl, valid⟩ := valid
    obtain ⟨length', valid'⟩ := valid'
    induction items generalizing others with
    | nil =>
      cases List.eq_nil_of_length_eq_zero length'
      exact iff_of_true rfl rfl
    | cons a rest ih =>
      obtain ⟨b, rest', rfl⟩ := List.exists_cons_of_length_eq_add_one length'
      have inA := valid a List.mem_cons_self
      have inB := valid' b List.mem_cons_self
      have tails := ih (fun c inside => valid c (.tail _ inside)) (by simpa using length')
        (fun c inside => valid' c (.tail _ inside))
      rw [List.flatMap_cons, List.flatMap_cons, List.map_cons, List.map_cons, List.cons.injEq,
        ← tails, ← tells.eq_iff inA inB]
      constructor
      · intro same
        exact List.append_inj same ((tells.length inA).trans (tells.length inB).symm)
      · rintro ⟨front, back⟩
        rw [front, back]

end Tells
end AztecPxe.FixedWidth
