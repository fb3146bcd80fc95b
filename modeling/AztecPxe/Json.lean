import AztecPxe.Field

/-! The JSON values a node answers with, and the few ways the code reads them.
An object is the list of its members; `serde_json` keeps one member for each
name, so looking up the first is looking up the only one. -/
namespace AztecPxe

/-- `serde_json::Value`; a number is one of the three forms of `Number`. -/
inductive Json where
  | null
  | bool (flag : Bool)
  | posInt (n : UInt64)
  | negInt (n : Int)
  | float (text : String)
  | str (text : String)
  | arr (items : List Json)
  | obj (members : List (String × Json))
  deriving Repr, Inhabited

namespace Json

/-- `Value::get` with a name. -/
def get (value : Json) (name : String) : Option Json :=
  match value with
  | .obj members => members.lookup name
  | _ => none

/-- `Value::pointer`, for the paths of member names the code uses: no name of
one reads as an array index. -/
def pointer (value : Json) (path : List String) : Option Json := path.foldlM get value

/-- `Value::as_u64`. -/
def asU64 : Json → Option Nat
  | .posInt n => some n.toNat
  | _ => none

/-- `Value::as_str`. -/
def asStr : Json → Option String
  | .str text => some text
  | _ => none

/-- `Value::as_bool`. -/
def asBool : Json → Option Bool
  | .bool flag => some flag
  | _ => none

/-- `Value::as_array`. -/
def asArray : Json → Option (List Json)
  | .arr items => some items
  | _ => none

/-- The `pointer("/name").or_else(|| get("name"))` of the readers. -/
def field (value : Json) (name : String) : Option Json :=
  (value.pointer [name]).or (value.get name)

end Json

/-- `char::to_digit`. -/
def toDigit (c : Char) (radix : Nat) : Option Nat :=
  let value := if '0' ≤ c ∧ c ≤ '9' then some (c.toNat - '0'.toNat)
    else if 'a' ≤ c ∧ c ≤ 'z' then some (c.toNat - 'a'.toNat + 10)
    else if 'A' ≤ c ∧ c ≤ 'Z' then some (c.toNat - 'A'.toNat + 10)
    else none
  value.filter (· < radix)

/-- `u64::from_str_radix(..).ok()`: an optional plus sign and at least one
digit, with nothing above `u64::MAX`. -/
def u64FromStrRadix (text : List Char) (radix : Nat) : Option Nat :=
  let digits := match text with
    | '+' :: rest => rest
    | all => all
  if digits = [] then none
  else digits.foldlM (fun value c => do
    let digit ← toDigit c radix
    let value := value * radix + digit
    if value < 2 ^ 64 then some value else none) 0

/-- A number read as `0x` and hexadecimal digits, or else as decimal digits. -/
def parseBlockNumber (text : String) : Option Nat :=
  match text.toList with
  | '0' :: 'x' :: hex => u64FromStrRadix hex 16
  | decimal => u64FromStrRadix decimal 10

/-- `0x` and the lowest `width` hexadecimal digits, in lower case. -/
def hexDigits (width n : Nat) : String :=
  let digit (k : Nat) : Char :=
    Char.ofNat (if k < 10 then '0'.toNat + k else 'a'.toNat + (k - 10))
  String.ofList ('0' :: 'x' :: (List.range width).reverse.map (fun i => digit (n / 16 ^ i % 16)))

/-- Thirty-two bytes as text. -/
def hex32 (n : Nat) : String := hexDigits 64 n

/-- Each hexadecimal digit has a character of its own. -/
theorem hexDigit_inj : ∀ a < 16, ∀ b < 16,
    Char.ofNat (if a < 10 then '0'.toNat + a else 'a'.toNat + (a - 10)) =
      Char.ofNat (if b < 10 then '0'.toNat + b else 'a'.toNat + (b - 10)) → a = b := by decide

/-- Digits say which number they are of, up to the digits left out. -/
theorem hexDigits_mod {width n m : Nat} (same : hexDigits width n = hexDigits width m) :
    n % 16 ^ width = m % 16 ^ width := by
  have digits : ∀ i < width, n / 16 ^ i % 16 = m / 16 ^ i % 16 := by
    intro i inside
    have texts := List.map_inj_left.mp
      (List.cons.inj (List.cons.inj (String.ofList_injective same)).2).2
    exact hexDigit_inj _ (Nat.mod_lt _ (by decide)) _ (Nat.mod_lt _ (by decide))
      (texts i (List.mem_reverse.mpr (List.mem_range.mpr inside)))
  clear same
  induction width with
  | zero => rw [pow_zero, Nat.mod_one, Nat.mod_one]
  | succ width ih =>
    rw [Nat.mod_pow_succ, Nat.mod_pow_succ, ih (fun i inside => digits i (Nat.lt_succ_of_lt inside)),
      digits width (Nat.lt_succ_self width)]

/-- A field's text is its own. -/
theorem hex32_inj {a b : Fr} : hex32 a.val = hex32 b.val ↔ a = b := by
  refine ⟨fun same => ?_, fun same => by rw [same]⟩
  have bound : frModulus ≤ 16 ^ 64 := by decide
  have values := hexDigits_mod same
  rw [Nat.mod_eq_of_lt (Nat.lt_of_lt_of_le a.isLt bound),
    Nat.mod_eq_of_lt (Nat.lt_of_lt_of_le b.isLt bound)] at values
  exact Fin.ext values

/-- `hex::decode` on an even number of characters, and the first character it
refuses with its position. -/
def hexValue (text : List Char) : Except Error Nat :=
  text.zipIdx.foldlM (fun value entry =>
    match toDigit entry.1 16 with
    | some digit => .ok (value * 16 + digit)
    | none => .error (.invalidData ("Invalid character " ++ Char.quote entry.1 ++
        " at position " ++ toString entry.2))) 0

/-- `decode_fixed_hex::<32>`, as one number: an optional `0x`, at most
sixty-four bytes of text, and a leading zero where their number is odd. -/
def decodeFixedHex (text : String) : Except Error Nat :=
  let bytes := text.toUTF8.toList.map (fun byte => Char.ofNat byte.toNat)
  let raw := match bytes with
    | '0' :: 'x' :: rest => rest
    | all => all
  if 64 < raw.length then .error (.invalidData "hex value too large: expected at most 32 bytes")
  else hexValue (if raw.length % 2 = 1 then '0' :: raw else raw)

/-- `Fr::from_hex`. -/
def Fr.fromHex (text : String) : Except Error Fr := do
  return Fin.ofNat frModulus (← decodeFixedHex text)

/-- `TxHash::from_hex`. -/
def TxHash.fromHex (text : String) : Except Error TxHash := do
  return ⟨Fin.ofNat (2 ^ 256) (← decodeFixedHex text)⟩

end AztecPxe
