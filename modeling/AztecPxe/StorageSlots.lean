import AztecPxe.BigEndian
import AztecPxe.CheckedDecoder

/-! Reads of consecutive slots of public storage, `get_public_storage_at` of `execution/oracle.rs`
and of `execution/utility_oracle.rs`. The slot of each value is found on the bytes of the first,
adding its place with a carry from byte to byte; a circuit adds in the field. -/
namespace AztecPxe
open ClassId BigEndian CheckedDecoder

/-! ## The slots -/

namespace StorageSlots

/-- The loop of `slot_with_offset`, over the bytes from the last. No sum in it passes the
`u128` of the carry. -/
def addCarry : List UInt8 → Nat → List UInt8
  | [], _ => []
  | byte :: bytes, carry =>
    if carry = 0 then byte :: bytes
    else
      let sum := byte.toNat + (carry &&& 0xff)
      UInt8.ofNat (sum &&& 0xff) :: addCarry bytes ((carry >>> 8) + (sum >>> 8))

/-- `slot_with_offset`, which both oracles have a copy of. -/
def slotWithOffset (startSlot : Fr) (offset : UInt64) : Fr :=
  .ofBeBytes (addCarry (toBeBytes startSlot).reverse offset.toNat).reverse

/-- A question to the node, `get_public_storage_at_by_hash` or `get_public_storage_at`. -/
inductive Read where
  | byHash (blockHash : Fr) (contract : AztecAddress) (slot : Fr)
  | atNumber (blockNumber : Nat) (contract : AztecAddress) (slot : Fr)
  deriving DecidableEq, Repr

/-- What the arguments ask for. -/
structure Request where
  blockHash : Option Fr
  contract : AztecAddress
  startSlot : Fr
  numberOfElements : Nat

namespace Request

/-- The two arguments no read goes without. -/
def required (contract startSlot : Option Fr) : Except Error (AztecAddress × Fr) :=
  match contract, startSlot with
  | none, _ => .error (.invalidData "missing contract address")
  | some _, none => .error (.invalidData "missing storage slot")
  | some contract, some startSlot => .ok (⟨contract⟩, startSlot)

/-- The arguments of a read: of several slots at a block, or of a single one. -/
def parse (args : Args) : Except Error Request :=
  if 4 ≤ args.length then
    (required (args.first 1) (args.first 2)).map (fun asked =>
      { blockHash := some ((args.first 0).getD 0)
        contract := asked.1
        startSlot := asked.2
        numberOfElements := max ((args.first 3).getD 0).toUsize 1 })
  else
    (required (args.first 0) (args.first 1)).map (fun asked =>
      { blockHash := none
        contract := asked.1
        startSlot := asked.2
        numberOfElements := 1 })

/-- The read of one slot. -/
def read (request : Request) (slot : Fr) : Read :=
  match request.blockHash with
  | some blockHash => .byHash blockHash request.contract slot
  | none => .atNumber 0 request.contract slot

/-- The reads of the loop, each slot found from the first with its offset. -/
def reads (request : Request) (slotWithOffset : Fr → UInt64 → Fr) : List Read :=
  (List.range request.numberOfElements).map
    (fun offset => request.read (slotWithOffset request.startSlot (.ofNat offset)))

end Request

/-- The loop that asks the node: what it asked, and the values read. It stops at an error. -/
def readSlots (node : Read → Except Error Fr) : List Read → List Read × Except Error (List Fr)
  | [] => ([], .ok [])
  | read :: reads =>
    match node read with
    | .error e => ([read], .error e)
    | .ok value =>
      let rest := readSlots node reads
      (read :: rest.1, rest.2.map (value :: ·))

/-- `get_public_storage_at`, one body in both oracles: what it asks the node, and what it
returns. -/
def getPublicStorageAt (slotWithOffset : Fr → UInt64 → Fr) (node : Read → Except Error Fr)
    (args : Args) : List Read × Except CheckedDecoder.Stop (List (List Fr)) :=
  match Request.parse args with
  | .error e => ([], .error (.err e))
  | .ok request =>
    match withCapacity 32 request.numberOfElements with
    | .error stop => ([], .error stop)
    | .ok () =>
      let run := readSlots node (request.reads slotWithOffset)
      (run.1, orErr (run.2.map ([·])))

end StorageSlots

namespace PrivateExecutionOracle

/-- `slot_with_offset` of `oracle.rs`. -/
def slotWithOffset (startSlot : Fr) (offset : UInt64) : Fr :=
  StorageSlots.slotWithOffset startSlot offset

/-- `PrivateExecutionOracle::get_public_storage_at`. -/
def getPublicStorageAt (node : StorageSlots.Read → Except Error Fr) (args : Args) :
    List StorageSlots.Read × Except CheckedDecoder.Stop (List (List Fr)) :=
  StorageSlots.getPublicStorageAt slotWithOffset node args

end PrivateExecutionOracle

namespace UtilityExecutionOracle

/-- `slot_with_offset` of `utility_oracle.rs`. -/
def slotWithOffset (startSlot : Fr) (offset : UInt64) : Fr :=
  StorageSlots.slotWithOffset startSlot offset

/-- `UtilityExecutionOracle::get_public_storage_at`. -/
def getPublicStorageAt (node : StorageSlots.Read → Except Error Fr) (args : Args) :
    List StorageSlots.Read × Except CheckedDecoder.Stop (List (List Fr)) :=
  StorageSlots.getPublicStorageAt slotWithOffset node args

end UtilityExecutionOracle

namespace StorageSlots

/-! ## Adding on the bytes -/

theorem and_low_byte (n : Nat) : n &&& 0xff = n % 256 := Nat.and_two_pow_sub_one_eq_mod n 8

theorem shift_byte (n : Nat) : n >>> 8 = n / 256 := Nat.shiftRight_eq_div_pow n 8

/-- The loop adds to the number the bytes form; what is carried out of the first byte is lost. -/
theorem fromBeBytes_addCarry (bytes : List UInt8) (carry : Nat) :
    fromBeBytes (addCarry bytes carry).reverse =
      (fromBeBytes bytes.reverse + carry) % 256 ^ bytes.length := by
  induction bytes generalizing carry with
  | nil => simp [addCarry, fromBeBytes, Nat.mod_one]
  | cons byte bytes ih =>
    by_cases done : carry = 0
    · have whole := fromBeBytes_lt (byte :: bytes).reverse
      rw [List.length_reverse] at whole
      rw [addCarry, if_pos done, done, Nat.add_zero, Nat.mod_eq_of_lt whole]
    · have small := byte.toNat_lt
      have lowest (n : Nat) : n % 256 ^ (bytes.length + 1) =
          n % 256 + 256 * (n / 256 % 256 ^ bytes.length) := by
        rw [Nat.pow_succ', Nat.mod_mul]
      have carried : (fromBeBytes bytes.reverse * 256 + byte.toNat + carry) / 256 =
          fromBeBytes bytes.reverse + (carry / 256 + (byte.toNat + carry % 256) / 256) := by omega
      simp only [addCarry, if_neg done, and_low_byte, shift_byte, List.reverse_cons,
        List.length_cons]
      rw [fromBeBytes_concat, fromBeBytes_concat, ih, UInt8.toNat_ofNat', lowest, carried]
      omega

/-- No carry is lost: a field element leaves room for any offset in its thirty-two bytes. -/
theorem slotWithOffset_eq (startSlot : Fr) (offset : UInt64) :
    slotWithOffset startSlot offset = startSlot + .ofU64 offset.toNat := by
  have room : frModulus + 2 ^ 64 ≤ 256 ^ 32 := by decide
  have sum : startSlot.val + offset.toNat < 256 ^ 32 :=
    (Nat.add_lt_add startSlot.isLt offset.toNat_lt).trans_le room
  refine Fin.ext ?_
  rw [slotWithOffset, Fr.ofBeBytes, Fin.val_ofNat, fromBeBytes_addCarry, List.reverse_reverse,
    List.length_reverse, length_toBeBytes, fromBeBytes_toBeBytes, Nat.mod_eq_of_lt sum, Fin.val_add,
    Fr.val_ofU64, Nat.mod_eq_of_lt offset.toNat_lt]

/-! ## The slots read -/

/-- What a circuit addresses with these arguments: from the first slot on, added in the field. -/
def addressed (args : Args) : List Read :=
  match Request.parse args with
  | .error _ => []
  | .ok request => request.reads (fun startSlot offset => startSlot + .ofU64 offset.toNat)

/-- Of the reads it is given the loop asks the first ones, and all where it succeeds. -/
theorem readSlots_asked (node : Read → Except Error Fr) (reads : List Read) :
    (readSlots node reads).1 <+: reads ∧
      ∀ values, (readSlots node reads).2 = .ok values → (readSlots node reads).1 = reads := by
  induction reads with
  | nil => exact ⟨List.prefix_rfl, fun _ _ => rfl⟩
  | cons read reads ih =>
    obtain ⟨front, whole⟩ := ih
    unfold readSlots
    cases node read with
    | error e => exact ⟨⟨reads, rfl⟩, fun _ success => nomatch success⟩
    | ok value =>
      dsimp only
      refine ⟨(List.prefix_cons_inj read).mpr front, fun values success => ?_⟩
      cases rest : (readSlots node reads).2 with
      | error e =>
        rw [rest] at success
        exact nomatch success
      | ok more => exact congrArg (read :: ·) (whole more rest)

theorem getPublicStorageAt_asked (node : Read → Except Error Fr) (args : Args) :
    let run := getPublicStorageAt slotWithOffset node args
    run.1 <+: addressed args ∧ ∀ values, run.2 = .ok values → run.1 = addressed args := by
  have same : slotWithOffset = fun startSlot offset => startSlot + .ofU64 offset.toNat :=
    funext fun startSlot => funext fun offset => slotWithOffset_eq startSlot offset
  unfold getPublicStorageAt addressed
  cases Request.parse args with
  | error e => exact ⟨List.nil_prefix, fun _ success => nomatch success⟩
  | ok request =>
    dsimp only
    cases withCapacity 32 request.numberOfElements with
    | error stop => exact ⟨List.nil_prefix, fun _ success => nomatch success⟩
    | ok room =>
      rw [same]
      obtain ⟨front, whole⟩ := readSlots_asked node
        (request.reads fun startSlot offset => startSlot + .ofU64 offset.toNat)
      refine ⟨front, fun values success => ?_⟩
      cases read : (readSlots node
        (request.reads fun startSlot offset => startSlot + .ofU64 offset.toNat)).2 with
      | error e =>
        rw [read] at success
        exact nomatch success
      | ok more => exact whole more read

/-- The arguments of a read of several slots address as many as they count. -/
theorem addressed_range (blockHash contract startSlot : Fr) {n : Nat} (some_slot : 0 < n)
    (short : n < 2 ^ 64) :
    addressed [[blockHash], [contract], [startSlot], [.ofU64 n]] =
      (List.range n).map (fun i => .byHash blockHash ⟨contract⟩ (startSlot + .ofU64 i)) := by
  have count : max (Fr.ofU64 n).toUsize 1 = n := by
    rw [Fr.toUsize_ofU64 short]
    omega
  change (List.range (max (Fr.ofU64 n).toUsize 1)).map _ = _
  rw [count]
  refine List.map_congr_left fun i below => ?_
  have small : i < 2 ^ 64 := (List.mem_range.mp below).trans short
  have word : (UInt64.ofNat i).toNat = i := by
    rw [UInt64.toNat_ofNat', Nat.mod_eq_of_lt small]
  change Read.byHash blockHash ⟨contract⟩ (startSlot + .ofU64 (UInt64.ofNat i).toNat) = _
  rw [word]

/-- Both oracles step through slots as the circuit does, by addition in the field. A read of
several asks the node for the slots addressed, in their order and for no others: for all of them
if it returns, and as far as it gets if the node fails. -/
theorem storage_reads_step_through_the_field (node : Read → Except Error Fr) :
    (∀ startSlot offset,
      PrivateExecutionOracle.slotWithOffset startSlot offset =
          startSlot + .ofU64 offset.toNat ∧
        UtilityExecutionOracle.slotWithOffset startSlot offset =
          startSlot + .ofU64 offset.toNat) ∧
    (∀ oracle ∈ [PrivateExecutionOracle.getPublicStorageAt,
        UtilityExecutionOracle.getPublicStorageAt], ∀ args,
      (oracle node args).1 <+: addressed args ∧
        ∀ values, (oracle node args).2 = .ok values → (oracle node args).1 = addressed args) ∧
    ∀ blockHash contract startSlot n, 0 < n → n < 2 ^ 64 →
      addressed [[blockHash], [contract], [startSlot], [.ofU64 n]] =
        (List.range n).map (fun i => .byHash blockHash ⟨contract⟩ (startSlot + .ofU64 i)) := by
  refine ⟨fun startSlot offset => ⟨slotWithOffset_eq startSlot offset,
    slotWithOffset_eq startSlot offset⟩, fun oracle one args => ?_,
    fun blockHash contract startSlot n some_slot short =>
      addressed_range blockHash contract startSlot some_slot short⟩
  rw [List.mem_pair] at one
  obtain rfl | rfl := one
  · exact getPublicStorageAt_asked node args
  · exact getPublicStorageAt_asked node args

end StorageSlots
end AztecPxe
