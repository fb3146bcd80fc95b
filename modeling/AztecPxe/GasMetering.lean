import AztecPxe.SimulatedKernel
import Mathlib.Algebra.Order.BigOperators.Group.Multiset

/-! Gas as a price list over the effects of a transaction. `meter_gas_rollup` charges every kind
of effect. `meter_gas_public` charges note hashes, nullifiers and private logs, and leaves out
L2-to-L1 messages and contract class logs, which its sibling charges. Gas is summed in `Nat`: a
sum that leaves 64 bits takes more entries than memory holds. -/
namespace AztecPxe.GasMetering
open SimulatedKernel

/-- An effect that gas is metered for. -/
inductive Effect where
  | noteHash (value : Fr)
  | nullifier (value : Fr)
  | l2ToL1Msg (message : ScopedL2ToL1Message)
  | privateLog (log : PrivateLog)
  | contractClassLog (hash : ScopedLogHash)
  deriving DecidableEq, Repr

/-- The L2 gas of an effect, as `L2_GAS_PER_*` has it. -/
def Effect.l2Price : Effect → Nat
  | .noteHash _ => 9200
  | .nullifier _ => 16000
  | .l2ToL1Msg _ => 5200
  | .privateLog _ => 2500
  | .contractClassLog _ => 73000

/-- The DA gas of an effect: `DA_GAS_PER_FIELD` for each field that counts. -/
def Effect.daPrice : Effect → Nat
  | .noteHash _ => 32
  | .nullifier _ => 32
  | .l2ToL1Msg _ => 0
  | .privateLog _ => 16 * 32
  | .contractClassLog _ => 0

/-- `meter_gas_public` has a term for effects of this kind. -/
def Effect.chargedInPublic : Effect → Bool
  | .l2ToL1Msg _ => false
  | .contractClassLog _ => false
  | _ => true

/-- The effects in five padded arrays, without the padding. -/
def effectsOf (noteHashes nullifiers : List Fr) (l2ToL1Msgs : List ScopedL2ToL1Message)
    (privateLogs : List PrivateLog) (classLogHashes : List ScopedLogHash) : Multiset Effect :=
  ((noteHashes.filter (· ≠ 0)).map .noteHash ++ (nullifiers.filter (· ≠ 0)).map .nullifier ++
    (l2ToL1Msgs.filter (·.content ≠ 0)).map .l2ToL1Msg ++
    (privateLogs.filter (fun log => !log.fields.all (· = 0))).map .privateLog ++
    (classLogHashes.filter (·.value ≠ 0)).map .contractClassLog : List Effect)

/-- The effects of a private transaction. -/
def rollupEffects (data : PrivateToRollupAccumulatedData) : Multiset Effect :=
  effectsOf data.noteHashes data.nullifiers data.l2ToL1Msgs data.privateLogs
    data.contractClassLogsHashes

/-- The effects of one section of a public transaction. -/
def sectionEffects (data : PrivateToPublicAccumulatedData) : Multiset Effect :=
  effectsOf data.noteHashes data.nullifiers data.l2ToL1Msgs data.privateLogs
    data.contractClassLogsHashes

/-- The effects of a public transaction. -/
def publicEffects (nonRevertible revertible : PrivateToPublicAccumulatedData) :
    Multiset Effect :=
  sectionEffects nonRevertible + sectionEffects revertible

/-- What the two metering functions charge beyond their overheads is the same. -/
def Uniform (nonRevertible revertible : PrivateToPublicAccumulatedData)
    (data : PrivateToRollupAccumulatedData) : Prop :=
  (meterGasPublic nonRevertible revertible).l2Gas - 540000 = (meterGasRollup data).l2Gas - 440000 ∧
    (meterGasPublic nonRevertible revertible).daGas - 96 = (meterGasRollup data).daGas - 96

instance (nonRevertible revertible : PrivateToPublicAccumulatedData)
    (data : PrivateToRollupAccumulatedData) : Decidable (Uniform nonRevertible revertible data) :=
  inferInstanceAs (Decidable (_ ∧ _))

/-! ## Sums over price lists -/

section Prices
variable {α : Type} {charged price : α → Nat}

/-- A price list that charges each item or leaves it out comes to the full sum exactly when it
leaves out no item with a price. -/
theorem sum_charged_eq_iff (some_or_none : ∀ item, charged item = price item ∨ charged item = 0)
    (items : Multiset α) :
    (items.map charged).sum = (items.map price).sum ↔
      ∀ item ∈ items, charged item = price item := by
  have below : ∀ item ∈ items, charged item ≤ price item := by
    intro item _
    rcases some_or_none item with same | nothing <;> omega
  constructor
  · intro same item inside
    by_contra differ
    have less := Multiset.sum_lt_sum below
      ⟨item, inside, lt_of_le_of_ne (below item inside) differ⟩
    exact absurd same (Nat.ne_of_lt less)
  · intro each
    exact congrArg Multiset.sum (Multiset.map_congr rfl each)

end Prices

/-! ## The metering functions as sums -/

/-- The L2 gas that `meter_gas_public` charges for an effect. -/
def Effect.publicL2Price (effect : Effect) : Nat :=
  if effect.chargedInPublic then effect.l2Price else 0

theorem Effect.l2Price_pos (effect : Effect) : 0 < effect.l2Price := by
  cases effect <;> simp [l2Price]

theorem Effect.publicL2Price_eq_iff (effect : Effect) :
    effect.publicL2Price = effect.l2Price ↔ effect.chargedInPublic := by
  have positive := effect.l2Price_pos
  unfold publicL2Price
  split
  · simp [*]
  · simp only [*, iff_false, Bool.false_eq_true]
    omega

theorem Effect.publicL2Price_pos_iff (effect : Effect) :
    0 < effect.publicL2Price ↔ effect.chargedInPublic := by
  have positive := effect.l2Price_pos
  unfold publicL2Price
  split <;> simp [*]

private theorem sum_map_const {α : Type} (price : Effect → Nat) (kind : α → Effect) (each : Nat)
    (constant : ∀ item, price (kind item) = each) (items : List α) :
    ((items.map kind).map price).sum = items.length * each := by
  induction items with
  | nil => simp
  | cons item rest ih =>
    simp only [List.map_cons, List.sum_cons, ih, constant, List.length_cons]
    ring

/-- A price list that depends on the kind only comes to the counts times the prices. -/
private theorem sum_effectsOf (price : Effect → Nat) {a b c d e : Nat}
    (noteHash : ∀ value, price (.noteHash value) = a)
    (nullifier : ∀ value, price (.nullifier value) = b)
    (message : ∀ message, price (.l2ToL1Msg message) = c)
    (privateLog : ∀ log, price (.privateLog log) = d)
    (classLog : ∀ hash, price (.contractClassLog hash) = e)
    (noteHashes nullifiers : List Fr) (l2ToL1Msgs : List ScopedL2ToL1Message)
    (privateLogs : List PrivateLog) (classLogHashes : List ScopedLogHash) :
    ((effectsOf noteHashes nullifiers l2ToL1Msgs privateLogs classLogHashes).map price).sum =
      countFields noteHashes * a + countFields nullifiers * b +
        (l2ToL1Msgs.filter (·.content ≠ 0)).length * c + countLogs privateLogs * d +
        (classLogHashes.filter (·.value ≠ 0)).length * e := by
  simp only [effectsOf, Multiset.map_coe, Multiset.sum_coe, List.map_append, List.sum_append]
  rw [sum_map_const price _ a noteHash, sum_map_const price _ b nullifier,
    sum_map_const price _ c message, sum_map_const price _ d privateLog,
    sum_map_const price _ e classLog]
  rfl

theorem meterGasRollup_l2Gas (data : PrivateToRollupAccumulatedData) :
    (meterGasRollup data).l2Gas = 440000 + ((rollupEffects data).map Effect.l2Price).sum := by
  rw [rollupEffects, sum_effectsOf Effect.l2Price (fun _ => rfl) (fun _ => rfl) (fun _ => rfl)
    (fun _ => rfl) (fun _ => rfl)]
  simp only [meterGasRollup]
  ring

theorem meterGasRollup_daGas (data : PrivateToRollupAccumulatedData) :
    (meterGasRollup data).daGas = 96 + ((rollupEffects data).map Effect.daPrice).sum := by
  rw [rollupEffects, sum_effectsOf Effect.daPrice (fun _ => rfl) (fun _ => rfl) (fun _ => rfl)
    (fun _ => rfl) (fun _ => rfl)]
  simp only [meterGasRollup]
  ring

theorem meterGasPublic_l2Gas (nonRevertible revertible : PrivateToPublicAccumulatedData) :
    (meterGasPublic nonRevertible revertible).l2Gas =
      540000 + ((publicEffects nonRevertible revertible).map Effect.publicL2Price).sum := by
  have each := sum_effectsOf Effect.publicL2Price (fun _ => rfl) (fun _ => rfl) (fun _ => rfl)
    (fun _ => rfl) (fun _ => rfl)
  simp only [publicEffects, sectionEffects, Multiset.map_add, Multiset.sum_add, each,
    meterGasPublic]
  ring

/-- DA gas is charged alike: the kinds that `meter_gas_public` leaves out have no price. -/
theorem meterGasPublic_daGas (nonRevertible revertible : PrivateToPublicAccumulatedData) :
    (meterGasPublic nonRevertible revertible).daGas =
      96 + ((publicEffects nonRevertible revertible).map Effect.daPrice).sum := by
  have each := sum_effectsOf Effect.daPrice (fun _ => rfl) (fun _ => rfl) (fun _ => rfl)
    (fun _ => rfl) (fun _ => rfl)
  simp only [publicEffects, sectionEffects, Multiset.map_add, Multiset.sum_add, each,
    meterGasPublic]
  ring

/-! ## Uniform metering -/

section Uniform
variable {nonRevertible revertible nonRevertible' revertible' : PrivateToPublicAccumulatedData}
  {data data' : PrivateToRollupAccumulatedData} {effect : Effect}

/-- An added effect always shows in the gas of a private transaction. -/
theorem meterGasRollup_added (added : rollupEffects data' = effect ::ₘ rollupEffects data) :
    (meterGasRollup data').l2Gas = (meterGasRollup data).l2Gas + effect.l2Price := by
  rw [meterGasRollup_l2Gas, meterGasRollup_l2Gas, added, Multiset.map_cons, Multiset.sum_cons]
  ring

theorem meterGasPublic_added
    (added : publicEffects nonRevertible' revertible' =
      effect ::ₘ publicEffects nonRevertible revertible) :
    (meterGasPublic nonRevertible' revertible').l2Gas =
      (meterGasPublic nonRevertible revertible).l2Gas + effect.publicL2Price := by
  rw [meterGasPublic_l2Gas, meterGasPublic_l2Gas, added, Multiset.map_cons, Multiset.sum_cons]
  ring

/-- A transaction is metered alike in both shapes exactly when `meter_gas_public` charges each of
its effects. -/
theorem uniform_iff_charged
    (split : publicEffects nonRevertible revertible = rollupEffects data) :
    Uniform nonRevertible revertible data ↔
      ∀ effect ∈ rollupEffects data, effect.chargedInPublic := by
  have da : (meterGasPublic nonRevertible revertible).daGas = (meterGasRollup data).daGas := by
    rw [meterGasPublic_daGas, meterGasRollup_daGas, split]
  have dropped : ∀ effect : Effect,
      effect.publicL2Price = effect.l2Price ∨ effect.publicL2Price = 0 := by
    intro effect
    unfold Effect.publicL2Price
    split <;> simp
  rw [Uniform, da, meterGasPublic_l2Gas, meterGasRollup_l2Gas, split, Nat.add_sub_cancel_left,
    Nat.add_sub_cancel_left, sum_charged_eq_iff dropped]
  simp only [and_true, Effect.publicL2Price_eq_iff]

/-- Metering is uniform, and shows each added effect, exactly for transactions without L2-to-L1
messages and contract class logs. Private transactions show every effect. -/
theorem metering_uniform_iff
    (split : publicEffects nonRevertible revertible = rollupEffects data)
    (added : publicEffects nonRevertible' revertible' =
      effect ::ₘ publicEffects nonRevertible revertible)
    (added' : rollupEffects data' = effect ::ₘ rollupEffects data) :
    (Uniform nonRevertible revertible data ↔
      (∀ message, Effect.l2ToL1Msg message ∉ rollupEffects data) ∧
        ∀ hash, Effect.contractClassLog hash ∉ rollupEffects data) ∧
    ((meterGasPublic nonRevertible' revertible').l2Gas ≠
        (meterGasPublic nonRevertible revertible).l2Gas ↔
      (∀ message, effect ≠ .l2ToL1Msg message) ∧ ∀ hash, effect ≠ .contractClassLog hash) ∧
    (meterGasRollup data').l2Gas ≠ (meterGasRollup data).l2Gas := by
  have uncharged : ∀ effect : Effect, effect.chargedInPublic ↔
      (∀ message, effect ≠ .l2ToL1Msg message) ∧ ∀ hash, effect ≠ .contractClassLog hash := by
    intro effect
    cases effect <;> simp [Effect.chargedInPublic]
  refine ⟨?_, ?_, ?_⟩
  · rw [uniform_iff_charged split]
    constructor
    · intro charged
      exact ⟨fun message inside => ((uncharged _).mp (charged _ inside)).1 message rfl,
        fun hash inside => ((uncharged _).mp (charged _ inside)).2 hash rfl⟩
    · rintro ⟨noMessage, noLog⟩ effect inside
      exact (uncharged effect).mpr ⟨fun message same => noMessage message (same ▸ inside),
        fun hash same => noLog hash (same ▸ inside)⟩
  · rw [meterGasPublic_added added, ← uncharged, ← Effect.publicL2Price_pos_iff]
    omega
  · have positive := effect.l2Price_pos
    rw [meterGasRollup_added added']
    omega

end Uniform

/-! ## One contract class log -/

/-- A section with the given note hashes and class log hashes. -/
private def sampleSection (noteHashes : List Fr) (classLogHashes : List ScopedLogHash) :
    PrivateToPublicAccumulatedData where
  noteHashes := noteHashes
  nullifiers := [0, 3]
  l2ToL1Msgs := []
  privateLogs := []
  contractClassLogsHashes := classLogHashes
  publicCallRequests := []

/-- The effects of a sample section and an empty one in one array each. -/
private def sampleData (noteHashes : List Fr) (classLogHashes : List ScopedLogHash) :
    PrivateToRollupAccumulatedData where
  noteHashes := noteHashes
  nullifiers := [3]
  l2ToL1Msgs := []
  privateLogs := []
  contractClassLogsHashes := classLogHashes

private def noEffects : PrivateToPublicAccumulatedData where
  noteHashes := [0]
  nullifiers := []
  l2ToL1Msgs := []
  privateLogs := []
  contractClassLogsHashes := []
  publicCallRequests := []

theorem metering_uniform_iff_sample :
    (Uniform noEffects (sampleSection [5] []) (sampleData [5] []) ↔
      (∀ message, Effect.l2ToL1Msg message ∉ rollupEffects (sampleData [5] [])) ∧
        ∀ hash, Effect.contractClassLog hash ∉ rollupEffects (sampleData [5] [])) ∧
    ((meterGasPublic noEffects (sampleSection [7, 5] [])).l2Gas ≠
        (meterGasPublic noEffects (sampleSection [5] [])).l2Gas ↔
      (∀ message, Effect.noteHash 7 ≠ .l2ToL1Msg message) ∧
        ∀ hash, Effect.noteHash 7 ≠ .contractClassLog hash) ∧
    (meterGasRollup (sampleData [7, 5] [])).l2Gas ≠ (meterGasRollup (sampleData [5] [])).l2Gas :=
  metering_uniform_iff (by decide) (by decide) (by decide)

/-- A contract class log costs 73000 L2 gas in a private transaction and nothing in a public one,
where adding it leaves the metered gas as it was. -/
theorem classLog_not_metered :
    ¬ Uniform noEffects (sampleSection [5] [{ value := 9 }]) (sampleData [5] [{ value := 9 }]) ∧
      publicEffects noEffects (sampleSection [5] [{ value := 9 }]) =
        rollupEffects (sampleData [5] [{ value := 9 }]) ∧
      publicEffects noEffects (sampleSection [5] [{ value := 9 }]) =
        .contractClassLog { value := 9 } ::ₘ publicEffects noEffects (sampleSection [5] []) ∧
      (meterGasPublic noEffects (sampleSection [5] [{ value := 9 }])).l2Gas =
        (meterGasPublic noEffects (sampleSection [5] [])).l2Gas := by
  decide

end AztecPxe.GasMetering
