import AztecPxe.Json
import AztecPxe.PrefixStore

/-! `stores/kv.rs`: the key-value store that all stores of a PXE share, with its implementation
in memory, and the ways the stores turn values and keys into bytes and back. -/
namespace AztecPxe

/-- How a call ends that returns nothing. -/
inductive Stop where
  | failed (e : Error)
  | panicked

/-- `kv.rs::KvStore`: what every implementation of the trait offers. -/
abbrev KvStore := PrefixStore UInt8 (List UInt8) Stop

namespace InMemoryKvStore

/-- `list_prefix`: `range(prefix..)` and `take_while` on the ordered map. -/
def listPrefix (data : Std.ExtTreeMap (List UInt8) (List UInt8)) (start : List UInt8) :
    List (List UInt8 × List UInt8) :=
  (data.toList.dropWhile (fun entry => compare entry.1 start = .lt)).takeWhile
    (fun entry => start.isPrefixOf entry.1)

theorem listPrefix_eq (data : Std.ExtTreeMap (List UInt8) (List UInt8)) (start : List UInt8) :
    listPrefix data start = data.toList.filter (fun entry => start.isPrefixOf entry.1) :=
  PrefixStore.scan_sorted start Std.ExtTreeMap.ordered_keys_toList

/-- A listing shows no key that starts otherwise. -/
theorem listPrefix_congr {start : List UInt8}
    {first second : Std.ExtTreeMap (List UInt8) (List UInt8)}
    (same : ∀ key, start <+: key → first[key]? = second[key]?) :
    listPrefix first start = listPrefix second start := by
  rw [listPrefix_eq, listPrefix_eq]
  exact PrefixStore.filter_toList_congr same

end InMemoryKvStore

/-- `kv.rs::InMemoryKvStore`. No call of it panics with the lock held, so the lock is never
poisoned. -/
def InMemoryKvStore : KvStore where
  State := Std.ExtTreeMap (List UInt8) (List UInt8)
  get data key := .ok data[key]?
  put data key value := (.ok (), data.insert key value)
  delete data key := (.ok (), data.erase key)
  listPrefix data start := .ok (InMemoryKvStore.listPrefix data start)
  get_put apart := by simp [Std.ExtTreeMap.getElem?_insert, Ne.symm apart]
  get_delete apart := by simp [Std.ExtTreeMap.getElem?_erase, Ne.symm apart]
  listPrefix_put outside := by
    refine congrArg Except.ok (InMemoryKvStore.listPrefix_congr (fun other begins => ?_))
    have apart := ne_of_mem_of_not_mem (s := {key | _ <+: key}) begins outside
    simp [Std.ExtTreeMap.getElem?_insert, Ne.symm apart]
  listPrefix_delete outside := by
    refine congrArg Except.ok (InMemoryKvStore.listPrefix_congr (fun other begins => ?_))
    have apart := ne_of_mem_of_not_mem (s := {key | _ <+: key}) begins outside
    simp [Std.ExtTreeMap.getElem?_erase, Ne.symm apart]
  mem_listPrefix listed entry held := by
    obtain rfl := Except.ok.inj listed
    rw [InMemoryKvStore.listPrefix_eq] at held
    exact List.isPrefixOf_iff_prefix.mp (List.mem_filter.mp held).2

/-- `InMemoryKvStore::new`. -/
def InMemoryKvStore.new : InMemoryKvStore.State :=
  (∅ : Std.ExtTreeMap (List UInt8) (List UInt8) compare)

/-! ## Texts as bytes -/

/-- `String::into_bytes`. -/
def utf8 (text : String) : List UInt8 := text.toList.flatMap String.utf8EncodeChar

theorem utf8_append (first second : String) :
    utf8 (first ++ second) = utf8 first ++ utf8 second := by
  rw [utf8, String.toList_append, List.flatMap_append]
  rfl

example : InMemoryKvStore.listPrefix (Std.ExtTreeMap.ofList [(utf8 "contract:b", utf8 "2"),
      (utf8 "key:x", utf8 "3"), (utf8 "contract:a", utf8 "1")]) (utf8 "contract:") =
    [(utf8 "contract:a", utf8 "1"), (utf8 "contract:b", utf8 "2")] := by
  decide +kernel

/-- A character that is not yet complete: its bits so far, how many bytes are missing, and the
bounds of the next. -/
structure Utf8Sequence where
  value : Nat
  missing : Nat
  low : Nat := 128
  high : Nat := 191

/-- What the first byte of a longer sequence announces. -/
def leadByte (byte : Nat) : Option Utf8Sequence :=
  if 194 ≤ byte ∧ byte ≤ 223 then some { value := byte - 192, missing := 1 }
  else if byte = 224 then some { value := 0, missing := 2, low := 160 }
  else if byte = 237 then some { value := 13, missing := 2, high := 159 }
  else if 225 ≤ byte ∧ byte ≤ 239 then some { value := byte - 224, missing := 2 }
  else if byte = 240 then some { value := 0, missing := 3, low := 144 }
  else if byte = 244 then some { value := 4, missing := 3, high := 143 }
  else if 241 ≤ byte ∧ byte ≤ 243 then some { value := byte - 240, missing := 3 }
  else none

/-- `char::REPLACEMENT_CHARACTER`. -/
def replacement : Char := Char.ofNat 65533

/-- `String::from_utf8_lossy` from within a sequence: what cannot be continued is replaced, and
the byte that does not continue it is read again. -/
def utf8Lossy (begun : Option Utf8Sequence) : List UInt8 → List Char
  | [] => if begun.isSome then [replacement] else []
  | byte :: rest =>
    match begun.filter (fun sequence =>
        sequence.low ≤ byte.toNat ∧ byte.toNat ≤ sequence.high) with
    | some sequence =>
      let value := sequence.value * 64 + (byte.toNat - 128)
      if sequence.missing = 1 then Char.ofNat value :: utf8Lossy none rest
      else utf8Lossy (some { value := value, missing := sequence.missing - 1 }) rest
    | none =>
      (if begun.isSome then [replacement] else []) ++
        (if byte.toNat < 128 then Char.ofNat byte.toNat :: utf8Lossy none rest
        else match leadByte byte.toNat with
          | some sequence => utf8Lossy (some sequence) rest
          | none => replacement :: utf8Lossy none rest)

/-- What follows the start in a key read as text: `from_utf8_lossy` and `strip_prefix`. -/
def textAfter (start : String) (key : List UInt8) : Option (List Char) :=
  let text := utf8Lossy none key
  if start.toList.isPrefixOf text then some (text.drop start.length) else none

example : textAfter "note_idx:block:" (utf8 "note_idx:block:1é") = some ['1', 'é'] := by
  decide +kernel

/-! ## Values as bytes -/

/-- `serde_json::to_vec` and `serde_json::from_slice` at one type. -/
structure Codec (α : Type) where
  toVec : α → Except Error (List UInt8)
  fromSlice : List UInt8 → Except Error α

namespace Codec
variable {kv : KvStore} {α : Type}

/-- The `?` operator. -/
def ofResult : Except Error α → kv.Program α
  | .ok value => pure value
  | .error e => throw (.failed e)

variable (codec : Codec α) (key : List UInt8)

/-- The value of a key, decoded if there is one. -/
def load : kv.Program (Option α) := do
  match ← kv.read key with
  | some bytes => return some (← ofResult (codec.fromSlice bytes))
  | none => return none

/-- Encode a value and put it. -/
def save (value : α) : kv.Program Unit := do
  kv.write key (← ofResult (codec.toVec value))

variable {codec key} {region : Set (List UInt8)}
open PrefixStore

theorem reads_ofResult (result : Except Error α) :
    Reads region (ofResult result : kv.Program α) := by
  cases result with
  | error e => exact reads_throw _
  | ok value => exact reads_pure value

theorem reads_load (inside : key ∈ region) :
    Reads region (codec.load key : kv.Program (Option α)) := by
  refine reads_bind (reads_read inside) (fun held => ?_)
  cases held with
  | none => exact reads_pure none
  | some bytes => exact reads_bind (reads_ofResult _) (fun _ => reads_pure _)

theorem writes_save (inside : key ∈ region) (value : α) :
    Writes region (codec.save key value : kv.Program Unit) :=
  writes_bind (reads_ofResult _).writes (fun _ => writes_put inside _)

end Codec

end AztecPxe
