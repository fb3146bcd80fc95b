import AztecPxe.ClassId
import AztecPxe.HexText

/-! Canonical JSON, the text the metadata of an artifact is hashed as: two values have one text
exactly if they differ in the order of members only. In one direction members sorted by distinct
names come out in one order; in the other a text is read in one way, since what follows a value
never starts with a character of numbers. -/
namespace AztecPxe.CanonicalJson
open Abi ClassId HexText

/-! ## Values -/

/-- Induction over values, with every item of an array or member of an object at once. -/
theorem valueInduction {P : Json → Prop} (null : P .null) (bool : ∀ flag, P (.bool flag))
    (posInt : ∀ n, P (.posInt n)) (negInt : ∀ n, P (.negInt n)) (float : ∀ text, P (.float text))
    (str : ∀ text, P (.str text)) (arr : ∀ items, (∀ item ∈ items, P item) → P (.arr items))
    (obj : ∀ members, (∀ member ∈ members, P member.2) → P (.obj members)) (a : Json) : P a :=
  @Json.rec P (fun items => ∀ item ∈ items, P item) (fun members => ∀ member ∈ members, P member.2)
    (fun member => P member.2) null bool posInt negInt float str arr obj
    (fun _ inside => nomatch inside)
    (fun _ _ first rest item inside =>
      (List.mem_cons.mp inside).elim (fun same => same ▸ first) (rest item))
    (fun _ inside => nomatch inside)
    (fun _ _ first rest member inside =>
      (List.mem_cons.mp inside).elim (fun same => same ▸ first) (rest member))
    (fun _ _ held => held) a

/-- A character of numbers. -/
def numberChar (c : Char) : Bool :=
  c.isDigit || c = '-' || c = '+' || c = '.' || c = 'e' || c = 'E'

/-- A finite float as `serde_json` prints it: with a point or an exponent, unlike an integer. -/
structure IsFloat (text : String) : Prop where
  chars : ∀ c ∈ text.toList, numberChar c
  fraction : '.' ∈ text.toList ∨ 'e' ∈ text.toList

mutual

/-- A value of `serde_json` without duplicate keys: integers that are not negative are `PosInt`. -/
def WellFormed : Json → Prop
  | .negInt n => n < 0
  | .float text => IsFloat text
  | .arr items => WellFormedItems items
  | .obj members => (members.map Prod.fst).Nodup ∧ WellFormedMembers members
  | _ => True

def WellFormedItems : List Json → Prop
  | [] => True
  | item :: items => WellFormed item ∧ WellFormedItems items

def WellFormedMembers : List (String × Json) → Prop
  | [] => True
  | (_, value) :: members => WellFormed value ∧ WellFormedMembers members

end

mutual

/-- Equality up to the order of members, at every depth. -/
def Alike : Json → Json → Prop
  | .arr items, b => ∃ others, b = .arr others ∧ AlikeItems items others
  | .obj members, b => ∃ others order, b = .obj others ∧ order.Perm others ∧
      AlikeMembers members order
  | a, b => a = b

/-- Items alike one by one. -/
def AlikeItems : List Json → List Json → Prop
  | [], others => others = []
  | item :: items, others => ∃ other rest, others = other :: rest ∧ Alike item other ∧
      AlikeItems items rest

/-- Members of one name and alike, one by one. -/
def AlikeMembers : List (String × Json) → List (String × Json) → Prop
  | [], others => others = []
  | (name, value) :: members, others => ∃ other rest, others = (name, other) :: rest ∧
      Alike value other ∧ AlikeMembers members rest

end

theorem wellFormed_of_mem {items : List Json} (sound : WellFormedItems items) {item : Json}
    (inside : item ∈ items) : WellFormed item := by
  induction items with
  | nil => cases inside
  | cons first items ih =>
    cases inside with
    | head => exact sound.1
    | tail _ later => exact ih sound.2 later

theorem wellFormed_of_member {members : List (String × Json)} (sound : WellFormedMembers members)
    {member : String × Json} (inside : member ∈ members) : WellFormed member.2 := by
  induction members with
  | nil => cases inside
  | cons first members ih =>
    cases inside with
    | head => exact sound.1
    | tail _ later => exact ih sound.2 later

theorem canonicalItems_eq (items : List Json) :
    canonicalItems items = items.map canonicalJsonString := by
  induction items with
  | nil => rfl
  | cons item items ih => rw [canonicalItems, ih, List.map_cons]

/-- The name and the text of a member. -/
def entryOf (member : String × Json) : String × String := (member.1, canonicalJsonString member.2)

theorem canonicalMembers_eq (members : List (String × Json)) :
    canonicalMembers members = members.map entryOf := by
  induction members with
  | nil => rfl
  | cons member members ih =>
    rw [canonicalMembers, ih, List.map_cons]
    rfl

/-! ## Sorting -/

theorem pairwise_sortByName (members : List (String × String)) :
    (sortByName members).Pairwise (fun a b => a.1 ≤ b.1) := by
  have sorted : (sortByName members).Pairwise (fun a b => decide (a.1 ≤ b.1)) := by
    refine List.pairwise_mergeSort (fun a b c ab bc => ?_) (fun a b => ?_) members
    · simp only [decide_eq_true_eq] at ab bc ⊢
      exact le_trans ab bc
    · simp only [Bool.or_eq_true, decide_eq_true_eq]
      exact le_total a.1 b.1
  exact sorted.imp of_decide_eq_true

theorem sortByName_perm (members : List (String × String)) : (sortByName members).Perm members :=
  List.mergeSort_perm _ _

/-- Members of distinct names are sorted in one way. -/
theorem sortByName_eq_of_perm {members others : List (String × String)}
    (distinct : (members.map Prod.fst).Nodup) (same : members.Perm others) :
    sortByName members = sortByName others := by
  have perm : (sortByName members).Perm (sortByName others) :=
    (sortByName_perm members).trans (same.trans (sortByName_perm others).symm)
  refine List.Perm.eq_of_pairwise (fun a b insideA insideB ab ba => ?_)
    (pairwise_sortByName members) (pairwise_sortByName others) perm
  have memberA := (sortByName_perm members).mem_iff.mp insideA
  have memberB := same.mem_iff.mpr ((sortByName_perm others).mem_iff.mp insideB)
  exact List.inj_on_of_nodup_map distinct memberA memberB (le_antisymm ab ba)

/-! ## Reading -/

/-- What may follow a value: no character of numbers. -/
def Delimited (rest : List Char) : Prop := ∀ c ∈ rest.head?, numberChar c = false

/-- Of the two texts none is the start of the other, whatever follows them. -/
def Apart (p q : List Char) : Prop :=
  ∀ r s, Delimited r → Delimited s → p ++ r = q ++ s → p = q ∧ r = s

/-- A number is read as far as its characters go. -/
theorem apart_of_numbers {p q : List Char} (numbersP : ∀ c ∈ p, numberChar c)
    (numbersQ : ∀ c ∈ q, numberChar c) : Apart p q := by
  intro r s delimitedR delimitedS same
  induction p generalizing q with
  | nil =>
    cases q with
    | nil => exact ⟨rfl, same⟩
    | cons c q =>
      have number := numbersQ c List.mem_cons_self
      rw [List.nil_append] at same
      rw [delimitedR c (by simp [same])] at number
      exact nomatch number
  | cons c p ih =>
    cases q with
    | nil =>
      have number := numbersP c List.mem_cons_self
      rw [List.nil_append] at same
      rw [delimitedS c (by simp [← same])] at number
      exact nomatch number
    | cons d q =>
      obtain ⟨first, later⟩ := List.cons.inj same
      obtain ⟨rest, follows⟩ := ih (fun c inside => numbersP c (List.mem_cons_of_mem _ inside))
        (fun c inside => numbersQ c (List.mem_cons_of_mem _ inside)) later
      exact ⟨by rw [first, rest], follows⟩

/-- The pieces after the first in a joined text, and the character that closes it. -/
def tailOf (close : Char) (rest : List Char) : List (List Char) → List Char
  | [] => close :: rest
  | piece :: pieces => ',' :: (piece ++ tailOf close rest pieces)

theorem delimited_tailOf {close : Char} (bracket : numberChar close = false) (rest : List Char)
    (pieces : List (List Char)) : Delimited (tailOf close rest pieces) := by
  cases pieces with
  | nil => simpa [Delimited, tailOf] using bracket
  | cons piece pieces => simp [Delimited, tailOf, numberChar]

/-- Pieces between commas are read one by one, up to what closes them. -/
theorem tailOf_inj {close : Char} (bracket : numberChar close = false) (comma : close ≠ ',')
    {ps qs : List (List Char)} (apart : ∀ p ∈ ps, ∀ q ∈ qs, Apart p q) {r s : List Char}
    (same : tailOf close r ps = tailOf close s qs) : ps = qs ∧ r = s := by
  induction ps generalizing qs with
  | nil =>
    cases qs with
    | nil => exact ⟨rfl, (List.cons.inj same).2⟩
    | cons q qs => exact absurd (List.cons.inj same).1 comma
  | cons p ps ih =>
    cases qs with
    | nil => exact absurd (List.cons.inj same).1.symm comma
    | cons q qs =>
      obtain ⟨first, later⟩ := apart p List.mem_cons_self q List.mem_cons_self _ _
        (delimited_tailOf bracket r ps) (delimited_tailOf bracket s qs) (List.cons.inj same).2
      obtain ⟨rest, follows⟩ := ih (fun p inP q inQ =>
        apart p (List.mem_cons_of_mem _ inP) q (List.mem_cons_of_mem _ inQ)) later
      exact ⟨by rw [first, rest], follows⟩

/-- The pieces between commas, closed. -/
def joined (close : Char) (pieces : List (List Char)) (rest : List Char) : List Char :=
  [','].intercalate pieces ++ close :: rest

theorem joined_cons (close : Char) (piece : List Char) (pieces : List (List Char))
    (rest : List Char) :
    joined close (piece :: pieces) rest = piece ++ tailOf close rest pieces := by
  induction pieces generalizing piece with
  | nil => simp [joined, tailOf]
  | cons next pieces ih =>
    have later := ih next
    simp only [joined] at later
    simp [joined, tailOf, List.intercalate_cons_cons, later]

/-- No piece is empty or starts with what closes the text, so the pieces are read one by one. -/
theorem joined_inj {close : Char} (bracket : numberChar close = false) (comma : close ≠ ',')
    {ps qs : List (List Char)} (apart : ∀ p ∈ ps, ∀ q ∈ qs, Apart p q)
    (openP : ∀ p ∈ ps, ∃ c p', p = c :: p' ∧ c ≠ close)
    (openQ : ∀ q ∈ qs, ∃ c q', q = c :: q' ∧ c ≠ close) {r s : List Char}
    (same : joined close ps r = joined close qs s) : ps = qs ∧ r = s := by
  cases ps with
  | nil =>
    cases qs with
    | nil => exact ⟨rfl, (List.cons.inj same).2⟩
    | cons q qs =>
      obtain ⟨c, q', rfl, other⟩ := openQ q List.mem_cons_self
      rw [joined_cons] at same
      exact absurd (List.cons.inj same).1.symm other
  | cons p ps =>
    cases qs with
    | nil =>
      obtain ⟨c, p', rfl, other⟩ := openP p List.mem_cons_self
      rw [joined_cons] at same
      exact absurd (List.cons.inj same).1 other
    | cons q qs =>
      rw [joined_cons, joined_cons] at same
      obtain ⟨first, later⟩ := apart p List.mem_cons_self q List.mem_cons_self _ _
        (delimited_tailOf bracket r ps) (delimited_tailOf bracket s qs) same
      obtain ⟨rest, follows⟩ := tailOf_inj bracket comma (fun p inP q inQ =>
        apart p (List.mem_cons_of_mem _ inP) q (List.mem_cons_of_mem _ inQ)) later
      exact ⟨by rw [first, rest], follows⟩

/-! ## Strings -/

/-- What a character is written as in the text of a string. -/
def escape (c : Char) : List Char :=
  if c = '"' then ['\\', '"'] else if c = '\\' then ['\\', '\\']
  else if c.toNat = 8 then ['\\', 'b'] else if c.toNat = 9 then ['\\', 't']
  else if c.toNat = 10 then ['\\', 'n'] else if c.toNat = 12 then ['\\', 'f']
  else if c.toNat = 13 then ['\\', 'r']
  else if c.toNat < 32 then
    '\\' :: 'u' :: (List.range 4).reverse.map (fun i =>
      let digit := c.toNat / 16 ^ i % 16
      Char.ofNat (if digit < 10 then '0'.toNat + digit else 'a'.toNat + (digit - 10)))
  else [c]

theorem toList_jsonString (text : String) :
    (jsonString text).toList = '"' :: (text.toList.flatMap escape ++ ['"']) := by
  have one (c : Char) : (if c = '"' then "\\\"" else if c = '\\' then "\\\\"
      else if c.toNat = 8 then "\\b" else if c.toNat = 9 then "\\t" else if c.toNat = 10 then "\\n"
      else if c.toNat = 12 then "\\f" else if c.toNat = 13 then "\\r"
      else if c.toNat < 32 then "\\u" ++ String.ofList ((hexDigits 4 c.toNat).toList.drop 2)
      else String.singleton c).toList = escape c := by
    unfold escape hexDigits
    split_ifs <;> simp
  simp [jsonString, List.flatMap_map, one]

/-- The characters that are escaped. -/
def escaped : List Char := '"' :: '\\' :: (List.range 32).map Char.ofNat

theorem escape_of_escaped {c : Char} (special : c ∈ escaped) : (escape c).head? = some '\\' := by
  have all : escaped.all (fun c => (escape c).head? = some '\\') = true := by decide +kernel
  exact of_decide_eq_true (List.all_eq_true.mp all c special)

/-- None of them is written as the start of another. -/
theorem escaped_apart {c d : Char} (specialC : c ∈ escaped) (specialD : d ∈ escaped)
    (front : escape c <+: escape d) : c = d := by
  have all : escaped.all (fun c => escaped.all (fun d =>
      !(escape c).isPrefixOf (escape d) || c = d)) = true := by decide +kernel
  have pair := List.all_eq_true.mp (List.all_eq_true.mp all c specialC) d specialD
  rw [List.isPrefixOf_iff_prefix.mpr front] at pair
  simpa using pair

theorem escape_plain {c : Char} (plain : c ∉ escaped) :
    escape c = [c] ∧ c ≠ '"' ∧ c ≠ '\\' := by
  simp only [escaped, List.mem_cons, List.mem_map, List.mem_range, not_or] at plain
  obtain ⟨no_quote, no_backslash, no_control⟩ := plain
  have printed : 32 ≤ c.toNat := by
    by_contra control
    exact no_control ⟨c.toNat, by omega, Char.ofNat_toNat c⟩
  refine ⟨?_, no_quote, no_backslash⟩
  rw [escape, if_neg no_quote, if_neg no_backslash, if_neg (by omega), if_neg (by omega),
    if_neg (by omega), if_neg (by omega), if_neg (by omega), if_neg (by omega)]

/-- What a character is written as starts with no quote. -/
theorem escape_opens (c : Char) : ∃ e rest, escape c = e :: rest ∧ e ≠ '"' := by
  by_cases special : c ∈ escaped
  · have head := escape_of_escaped special
    cases written : escape c with
    | nil => simp [written] at head
    | cons e rest =>
      rw [written] at head
      cases head
      exact ⟨_, rest, rfl, by decide⟩
  · obtain ⟨written, no_quote, -⟩ := escape_plain special
    exact ⟨c, [], written, no_quote⟩

/-- Characters are told apart by what they are written as, whatever follows. -/
theorem escape_apart {c d : Char} {r s : List Char}
    (same : escape c ++ r = escape d ++ s) : c = d := by
  have mixed {c d : Char} {r s : List Char} (special : c ∈ escaped) (plain : d ∉ escaped)
      (same : escape c ++ r = escape d ++ s) : False := by
    have head := escape_of_escaped special
    obtain ⟨written, -, no_backslash⟩ := escape_plain plain
    cases opens : escape c with
    | nil => simp [opens] at head
    | cons e rest =>
      rw [opens] at head same
      cases head
      rw [written] at same
      exact no_backslash (List.cons.inj same).1.symm
  by_cases specialC : c ∈ escaped
  · by_cases specialD : d ∈ escaped
    · have front : escape c <+: escape d ++ s := ⟨r, same⟩
      rcases List.prefix_or_prefix_of_prefix front (List.prefix_append _ s) with shorter | longer
      · exact escaped_apart specialC specialD shorter
      · exact (escaped_apart specialD specialC longer).symm
    · exact (mixed specialC specialD same).elim
  · by_cases specialD : d ∈ escaped
    · exact (mixed specialD specialC same.symm).elim
    · rw [(escape_plain specialC).1, (escape_plain specialD).1] at same
      exact (List.cons.inj same).1

/-- A string is read up to its quote. -/
theorem quoted_inj {cs ds r s : List Char}
    (same : cs.flatMap escape ++ '"' :: r =
      ds.flatMap escape ++ '"' :: s) : cs = ds ∧ r = s := by
  induction cs generalizing ds with
  | nil =>
    cases ds with
    | nil => exact ⟨rfl, (List.cons.inj same).2⟩
    | cons d ds =>
      obtain ⟨e, rest, written, no_quote⟩ := escape_opens d
      simp only [List.flatMap_nil, List.flatMap_cons, written, List.nil_append,
        List.cons_append] at same
      exact absurd (List.cons.inj same).1.symm no_quote
  | cons c cs ih =>
    cases ds with
    | nil =>
      obtain ⟨e, rest, written, no_quote⟩ := escape_opens c
      simp only [List.flatMap_nil, List.flatMap_cons, written, List.nil_append,
        List.cons_append] at same
      exact absurd (List.cons.inj same).1 no_quote
    | cons d ds =>
      simp only [List.flatMap_cons, List.append_assoc] at same
      have first := escape_apart same
      subst first
      obtain ⟨rest, follows⟩ := ih (List.append_cancel_left same)
      exact ⟨by rw [rest], follows⟩

theorem jsonString_apart {a b : String} {r s : List Char}
    (same : (jsonString a).toList ++ r = (jsonString b).toList ++ s) : a = b ∧ r = s := by
  simp only [toList_jsonString, List.cons_append, List.append_assoc, List.nil_append] at same
  obtain ⟨text, follows⟩ := quoted_inj (List.cons.inj same).2
  exact ⟨String.toList_injective text, follows⟩

/-! ## Texts -/

/-- The text of a value. -/
def text (a : Json) : List Char := (canonicalJsonString a).toList

/-- The text of a member of an object. -/
def entryText (entry : String × String) : List Char :=
  (jsonString entry.1).toList ++ ':' :: entry.2.toList

theorem text_arr (items : List Json) (rest : List Char) :
    text (.arr items) ++ rest = '[' :: joined ']' (items.map text) rest := by
  simp [text, canonicalJsonString, canonicalItems_eq, joined, Function.comp_def]
  rfl

theorem text_obj (members : List (String × Json)) (rest : List Char) :
    text (.obj members) ++ rest =
      '\x7b' :: joined '\x7d' ((sortByName (canonicalMembers members)).map entryText) rest := by
  simp [text, canonicalJsonString, joined, Function.comp_def]
  rfl

/-- What the text of a value starts with, any character of numbers as a digit. -/
def opening : Json → Char
  | .null => 'n'
  | .bool flag => if flag then 't' else 'f'
  | .str _ => '"'
  | .arr _ => '['
  | .obj _ => '\x7b'
  | _ => '0'

theorem toList_natToString (n : Nat) : (toString n).toList = Nat.toDigits 10 n := Nat.toList_repr

theorem natDigits (n : Nat) : ∀ c ∈ (toString n).toList, c.isDigit := by
  intro c inside
  rw [toList_natToString] at inside
  exact Nat.isDigit_of_mem_toDigits (by decide) (by decide) inside

/-- A negative number is written as its sign and digits. -/
theorem toList_negative {n : Int} (negative : n < 0) :
    (toString n).toList = '-' :: (toString n.natAbs).toList := by
  cases n with
  | ofNat m => exact absurd negative (Int.not_lt.mpr (Int.natCast_nonneg m))
  | negSucc m =>
    have written : toString (Int.negSucc m) = "-" ++ toString (m + 1) := rfl
    rw [written, String.toList_append]
    rfl

theorem numberChar_of_isDigit {c : Char} (digit : c.isDigit) : numberChar c := by
  simp [numberChar, digit]

/-- Numbers are written in their characters, and not as nothing. -/
theorem number_chars {a : Json} (sound : WellFormed a) (number : opening a = '0') :
    text a ≠ [] ∧ ∀ c ∈ text a, numberChar c := by
  cases a with
  | posInt n =>
    refine ⟨?_, fun c inside => numberChar_of_isDigit (natDigits _ c inside)⟩
    change (toString n.toNat).toList ≠ []
    rw [toList_natToString]
    exact Nat.toDigits_ne_nil
  | negInt n =>
    have written : text (.negInt n) = '-' :: (toString n.natAbs).toList := toList_negative sound
    rw [written]
    refine ⟨List.cons_ne_nil _ _, fun c inside => ?_⟩
    cases inside with
    | head => rfl
    | tail _ digit => exact numberChar_of_isDigit (natDigits _ c digit)
  | float written =>
    refine ⟨fun none => ?_, sound.chars⟩
    have nothing : written.toList = [] := none
    have point := sound.fraction
    rw [nothing] at point
    simp at point
  | bool flag => cases flag <;> exact nomatch number
  | _ => exact nomatch number

/-- What a text starts with tells what it is the text of. -/
theorem opening_of_head {a : Json} (sound : WellFormed a) : ∃ c rest, text a = c :: rest ∧
    opening a = if numberChar c then '0' else c := by
  by_cases number : opening a = '0'
  · obtain ⟨some_char, chars⟩ := number_chars sound number
    obtain ⟨c, rest, written⟩ := List.exists_cons_of_ne_nil some_char
    refine ⟨c, rest, written, ?_⟩
    rw [if_pos (chars c (by rw [written]; exact List.mem_cons_self)), number]
  · cases a with
    | null => exact ⟨'n', _, rfl, rfl⟩
    | bool flag => cases flag <;> exact ⟨_, _, rfl, rfl⟩
    | str string => exact ⟨'"', _, toList_jsonString string, rfl⟩
    | arr items =>
      have written := text_arr items []
      rw [List.append_nil] at written
      exact ⟨'[', _, written, rfl⟩
    | obj members =>
      have written := text_obj members []
      rw [List.append_nil] at written
      exact ⟨'\x7b', _, written, rfl⟩
    | _ => exact absurd rfl number

theorem opening_eq {a b : Json} (soundA : WellFormed a) (soundB : WellFormed b) {r s : List Char}
    (same : text a ++ r = text b ++ s) : opening a = opening b := by
  obtain ⟨c, restA, writtenA, openA⟩ := opening_of_head soundA
  obtain ⟨d, restB, writtenB, openB⟩ := opening_of_head soundB
  rw [writtenA, writtenB] at same
  rw [openA, openB, (List.cons.inj same).1]

section Openings
variable {b : Json}

theorem eq_null (opens : opening .null = opening b) : b = .null := by
  cases b with
  | null => rfl
  | bool flag => cases flag <;> exact nomatch opens
  | _ => exact nomatch opens

theorem eq_bool {flag : Bool} (opens : opening (.bool flag) = opening b) : b = .bool flag := by
  cases b with
  | bool other => cases flag <;> cases other <;> first | rfl | exact nomatch opens
  | _ => cases flag <;> exact nomatch opens

theorem eq_str {string : String} (opens : opening (.str string) = opening b) :
    ∃ other, b = .str other := by
  cases b with
  | str other => exact ⟨other, rfl⟩
  | bool flag => cases flag <;> exact nomatch opens
  | _ => exact nomatch opens

theorem eq_arr {items : List Json} (opens : opening (.arr items) = opening b) :
    ∃ others, b = .arr others := by
  cases b with
  | arr others => exact ⟨others, rfl⟩
  | bool flag => cases flag <;> exact nomatch opens
  | _ => exact nomatch opens

theorem eq_obj {members : List (String × Json)} (opens : opening (.obj members) = opening b) :
    ∃ others, b = .obj others := by
  cases b with
  | obj others => exact ⟨others, rfl⟩
  | bool flag => cases flag <;> exact nomatch opens
  | _ => exact nomatch opens

/-- No text starts as an array or object ends. -/
theorem opening_ne_close {close : Char} (bracket : close = ']' ∨ close = '\x7d') :
    opening b ≠ close := by
  rcases bracket with rfl | rfl
  · cases b with
    | bool flag => cases flag <;> exact nofun
    | _ => exact nofun
  · cases b with
    | bool flag => cases flag <;> exact nofun
    | _ => exact nofun

end Openings

/-! ## Texts are read in one way -/

theorem apart_self (p : List Char) : Apart p p :=
  fun _ _ _ _ same => ⟨rfl, List.append_cancel_left same⟩

/-- The text of a value does not start as that of an array or object ends. -/
theorem text_opens {close : Char} (bracket : close = ']' ∨ close = '\x7d') {a : Json}
    (sound : WellFormed a) : ∃ c rest, text a = c :: rest ∧ c ≠ close := by
  obtain ⟨c, rest, written, opens⟩ := opening_of_head sound
  refine ⟨c, rest, written, fun closes => opening_ne_close bracket (b := a) ?_⟩
  rw [opens, closes]
  rcases bracket with rfl | rfl <;> rfl

/-- The entries of an object are texts of its members. -/
theorem entry_of_mem {members : List (String × Json)} {entry : String × String}
    (inside : entry ∈ sortByName (canonicalMembers members)) :
    ∃ member ∈ members, entry = entryOf member := by
  rw [(sortByName_perm _).mem_iff, canonicalMembers_eq] at inside
  obtain ⟨member, isMember, rfl⟩ := List.mem_map.mp inside
  exact ⟨member, isMember, rfl⟩

/-- Members are read by their name, a colon and their value. -/
theorem entryText_apart {a b : String × Json} (apart : Apart (text a.2) (text b.2)) :
    Apart (entryText (entryOf a)) (entryText (entryOf b)) := by
  intro r s delimitedR delimitedS same
  simp only [entryText, entryOf, List.append_assoc, List.cons_append] at same
  obtain ⟨names, values⟩ := jsonString_apart same
  obtain ⟨written, follows⟩ := apart r s delimitedR delimitedS (List.cons.inj values).2
  change (canonicalJsonString a.2).toList = (canonicalJsonString b.2).toList at written
  simp only [entryText, entryOf, names, written, follows, and_self]

section Containers
variable {r s : List Char}

/-- Arrays whose items are read in one way are. -/
theorem items_of_text {items others : List Json} (sound : WellFormedItems items)
    (soundOthers : WellFormedItems others)
    (apart : ∀ a ∈ items, ∀ b ∈ others, Apart (text a) (text b))
    (same : text (.arr items) ++ r = text (.arr others) ++ s) :
    items.map text = others.map text ∧ r = s := by
  rw [text_arr, text_arr] at same
  refine joined_inj (by decide) (by decide) ?_ ?_ ?_ (List.cons.inj same).2
  · intro p inP q inQ
    obtain ⟨a, inA, rfl⟩ := List.mem_map.mp inP
    obtain ⟨b, inB, rfl⟩ := List.mem_map.mp inQ
    exact apart a inA b inB
  · intro p inP
    obtain ⟨a, inA, rfl⟩ := List.mem_map.mp inP
    exact text_opens (.inl rfl) (wellFormed_of_mem sound inA)
  · intro q inQ
    obtain ⟨b, inB, rfl⟩ := List.mem_map.mp inQ
    exact text_opens (.inl rfl) (wellFormed_of_mem soundOthers inB)

/-- Objects whose values are read in one way are, by their entries in order. -/
theorem entries_of_text {members others : List (String × Json)}
    (apart : ∀ a ∈ members, ∀ b ∈ others, Apart (text a.2) (text b.2))
    (same : text (.obj members) ++ r = text (.obj others) ++ s) :
    (sortByName (canonicalMembers members)).map entryText =
      (sortByName (canonicalMembers others)).map entryText ∧ r = s := by
  have opens (entry : String × String) : ∃ c rest, entryText entry = c :: rest ∧ c ≠ '\x7d' := by
    rw [entryText, toList_jsonString]
    exact ⟨'"', _, rfl, by decide⟩
  rw [text_obj, text_obj] at same
  refine joined_inj (by decide) (by decide) ?_ ?_ ?_ (List.cons.inj same).2
  · intro p inP q inQ
    obtain ⟨entryA, inA, rfl⟩ := List.mem_map.mp inP
    obtain ⟨entryB, inB, rfl⟩ := List.mem_map.mp inQ
    obtain ⟨a, memberA, rfl⟩ := entry_of_mem inA
    obtain ⟨b, memberB, rfl⟩ := entry_of_mem inB
    exact entryText_apart (apart a memberA b memberB)
  · intro p inP
    obtain ⟨entry, -, rfl⟩ := List.mem_map.mp inP
    exact opens entry
  · intro q inQ
    obtain ⟨entry, -, rfl⟩ := List.mem_map.mp inQ
    exact opens entry

end Containers

/-- Numbers are read as far as their characters go. -/
theorem text_apart_of_number {a b : Json} (soundA : WellFormed a) (soundB : WellFormed b)
    (number : opening a = '0') : Apart (text a) (text b) := by
  intro r s delimitedR delimitedS same
  have other := (opening_eq soundA soundB same).symm.trans number
  exact apart_of_numbers (number_chars soundA number).2 (number_chars soundB other).2 r s delimitedR
    delimitedS same

/-- No text of a value is the start of another's, followed by no character of numbers. -/
theorem text_apart {a : Json} (soundA : WellFormed a) {b : Json} (soundB : WellFormed b) :
    Apart (text a) (text b) := by
  induction a using valueInduction generalizing b with
  | null =>
    intro r s delimitedR delimitedS same
    have alike := eq_null (opening_eq soundA soundB same)
    subst alike
    exact apart_self _ r s delimitedR delimitedS same
  | bool flag =>
    intro r s delimitedR delimitedS same
    have alike := eq_bool (opening_eq soundA soundB same)
    subst alike
    exact apart_self _ r s delimitedR delimitedS same
  | posInt n => exact text_apart_of_number soundA soundB rfl
  | negInt n => exact text_apart_of_number soundA soundB rfl
  | float written => exact text_apart_of_number soundA soundB rfl
  | str string =>
    intro r s delimitedR delimitedS same
    obtain ⟨other, rfl⟩ := eq_str (opening_eq soundA soundB same)
    obtain ⟨strings, follows⟩ := jsonString_apart same
    exact ⟨by rw [strings], follows⟩
  | arr items ih =>
    intro r s delimitedR delimitedS same
    obtain ⟨others, rfl⟩ := eq_arr (opening_eq soundA soundB same)
    obtain ⟨texts, follows⟩ := items_of_text soundA soundB (fun a inA b inB =>
      ih a inA (wellFormed_of_mem soundA inA) (wellFormed_of_mem soundB inB)) same
    refine ⟨?_, follows⟩
    rw [← List.append_nil (text (.arr items)), ← List.append_nil (text (.arr others)), text_arr,
      text_arr, texts]
  | obj members ih =>
    intro r s delimitedR delimitedS same
    obtain ⟨others, rfl⟩ := eq_obj (opening_eq soundA soundB same)
    obtain ⟨texts, follows⟩ := entries_of_text (fun a inA b inB =>
      ih a inA (wellFormed_of_member soundA.2 inA) (wellFormed_of_member soundB.2 inB)) same
    refine ⟨?_, follows⟩
    rw [← List.append_nil (text (.obj members)), ← List.append_nil (text (.obj others)),
      text_obj, text_obj, texts]

/-! ## Equal texts -/

theorem not_fraction_of_isDigit {c : Char} (digit : c.isDigit) : c ≠ '-' ∧ c ≠ '.' ∧ c ≠ 'e' := by
  refine ⟨?_, ?_, ?_⟩ <;> rintro rfl <;> exact nomatch digit

/-- The text of an integer has no point and no exponent. -/
theorem integer_no_fraction {a : Json} (sound : WellFormed a)
    (integer : (∃ n, a = .posInt n) ∨ ∃ n, a = .negInt n) : '.' ∉ text a ∧ 'e' ∉ text a := by
  have digits (n : Nat) : '.' ∉ (toString n).toList ∧ 'e' ∉ (toString n).toList :=
    ⟨fun inside => (not_fraction_of_isDigit (natDigits n _ inside)).2.1 rfl,
      fun inside => (not_fraction_of_isDigit (natDigits n _ inside)).2.2 rfl⟩
  rcases integer with ⟨n, rfl⟩ | ⟨n, rfl⟩
  · exact digits n.toNat
  · have written : text (.negInt n) = '-' :: (toString n.natAbs).toList := toList_negative sound
    rw [written]
    simpa using digits n.natAbs

theorem text_posInt_ne_negInt (n : UInt64) {m : Int} (negative : m < 0) :
    text (.posInt n) ≠ text (.negInt m) := by
  intro same
  have written : text (.negInt m) = '-' :: (toString m.natAbs).toList := toList_negative negative
  have sign : '-' ∈ (toString n.toNat).toList := by
    change '-' ∈ text (.posInt n)
    rw [same, written]
    exact List.mem_cons_self
  exact (not_fraction_of_isDigit (natDigits _ _ sign)).1 rfl

/-- Integers and floats are told apart by their texts. -/
theorem text_integer_ne_float {a : Json} (sound : WellFormed a)
    (integer : (∃ n, a = .posInt n) ∨ ∃ n, a = .negInt n) {written : String}
    (float : IsFloat written) : text a ≠ text (.float written) := by
  intro same
  obtain ⟨no_point, no_exponent⟩ := integer_no_fraction sound integer
  rw [same] at no_point no_exponent
  exact float.fraction.elim no_point no_exponent

/-- Numbers of one text are one. -/
theorem number_of_text {a b : Json} (soundA : WellFormed a) (soundB : WellFormed b)
    (numberA : opening a = '0') (numberB : opening b = '0') (same : text a = text b) : a = b := by
  cases a with
  | posInt n =>
    cases b with
    | posInt m =>
      have digits : Nat.repr n.toNat = Nat.repr m.toNat := String.toList_injective same
      rw [UInt64.toNat_inj.mp (Nat.repr_injective digits)]
    | negInt m => exact absurd same (text_posInt_ne_negInt n soundB)
    | float written => exact absurd same (text_integer_ne_float soundA (.inl ⟨n, rfl⟩) soundB)
    | bool flag => cases flag <;> exact nomatch numberB
    | _ => exact nomatch numberB
  | negInt n =>
    cases b with
    | posInt m => exact absurd same.symm (text_posInt_ne_negInt m soundA)
    | negInt m =>
      have digits : Int.repr n = Int.repr m := String.toList_injective same
      rw [Int.repr_injective digits]
    | float written => exact absurd same (text_integer_ne_float soundA (.inr ⟨n, rfl⟩) soundB)
    | bool flag => cases flag <;> exact nomatch numberB
    | _ => exact nomatch numberB
  | float written =>
    cases b with
    | posInt m => exact absurd same.symm (text_integer_ne_float soundB (.inl ⟨m, rfl⟩) soundA)
    | negInt m => exact absurd same.symm (text_integer_ne_float soundB (.inr ⟨m, rfl⟩) soundA)
    | float other =>
      have one : written = other := String.toList_injective same
      rw [one]
    | bool flag => cases flag <;> exact nomatch numberB
    | _ => exact nomatch numberB
  | bool flag => cases flag <;> exact nomatch numberA
  | _ => exact nomatch numberA

theorem entryText_injective : Function.Injective entryText := by
  intro a b same
  obtain ⟨names, values⟩ := jsonString_apart same
  exact Prod.ext names (String.toList_injective (List.cons.inj values).2)

/-- Members of the same entries can be put in the same order. -/
theorem exists_order {members others : List (String × Json)}
    (same : (canonicalMembers members).Perm (canonicalMembers others)) :
    ∃ order : List (String × Json), order.Perm others ∧
      canonicalMembers order = canonicalMembers members := by
  simp only [canonicalMembers_eq] at same ⊢
  have related := congrFun (congrFun (List.eq_map_comp_perm entryOf) (members.map entryOf)) others
  obtain ⟨order, texts, perm⟩ := related.mpr same
  exact ⟨order, perm, texts.symm⟩

theorem alikeItems_of_texts {items others : List Json} (soundItems : WellFormedItems items)
    (soundOthers : WellFormedItems others)
    (ih : ∀ item ∈ items, WellFormed item → ∀ {b}, WellFormed b → text item = text b →
      Alike item b) (same : items.map text = others.map text) : AlikeItems items others := by
  induction items generalizing others with
  | nil => exact List.map_eq_nil_iff.mp same.symm
  | cons item items below =>
    cases others with
    | nil => exact nomatch same
    | cons other others =>
      obtain ⟨first, rest⟩ := List.cons.inj same
      exact ⟨other, others, rfl, ih item List.mem_cons_self soundItems.1 soundOthers.1 first,
        below soundItems.2 soundOthers.2
          (fun item inside => ih item (List.mem_cons_of_mem _ inside)) rest⟩

theorem alikeMembers_of_texts {members order : List (String × Json)}
    (soundMembers : WellFormedMembers members) (soundOrder : ∀ member ∈ order, WellFormed member.2)
    (ih : ∀ member ∈ members, WellFormed member.2 → ∀ {b}, WellFormed b → text member.2 = text b →
      Alike member.2 b) (same : canonicalMembers order = canonicalMembers members) :
    AlikeMembers members order := by
  simp only [canonicalMembers_eq] at same
  induction members generalizing order with
  | nil => exact List.map_eq_nil_iff.mp same
  | cons member members below =>
    cases order with
    | nil => exact nomatch same
    | cons other order =>
      obtain ⟨first, rest⟩ := List.cons.inj same
      obtain ⟨name, written⟩ := Prod.mk.inj first
      refine ⟨other.2, order, ?_, ih member List.mem_cons_self soundMembers.1
        (soundOrder other List.mem_cons_self) (congrArg String.toList written.symm),
        below soundMembers.2 (fun member inside => soundOrder member (List.mem_cons_of_mem _ inside))
          (fun member inside => ih member (List.mem_cons_of_mem _ inside)) rest⟩
      rw [← name]

/-- Values of one text differ in the order of members only. -/
theorem alike_of_text {a : Json} (soundA : WellFormed a) {b : Json} (soundB : WellFormed b)
    (same : text a = text b) : Alike a b := by
  have ends : text a ++ [] = text b ++ [] := by rw [same]
  have opens := opening_eq soundA soundB ends
  induction a using valueInduction generalizing b with
  | null => exact (eq_null opens).symm
  | bool flag => exact (eq_bool opens).symm
  | posInt n => exact number_of_text soundA soundB rfl opens.symm same
  | negInt n => exact number_of_text soundA soundB rfl opens.symm same
  | float written => exact number_of_text soundA soundB rfl opens.symm same
  | str string =>
    obtain ⟨other, rfl⟩ := eq_str opens
    exact congrArg Json.str (jsonString_apart ends).1
  | arr items ih =>
    obtain ⟨others, rfl⟩ := eq_arr opens
    obtain ⟨texts, -⟩ := items_of_text soundA soundB (fun a inA b inB =>
      text_apart (wellFormed_of_mem soundA inA) (wellFormed_of_mem soundB inB)) ends
    refine ⟨others, rfl, alikeItems_of_texts soundA soundB
      (fun item inside sound b soundB same => ?_) texts⟩
    have ends : text item ++ [] = text b ++ [] := by rw [same]
    exact ih item inside sound soundB same ends (opening_eq sound soundB ends)
  | obj members ih =>
    obtain ⟨others, rfl⟩ := eq_obj opens
    obtain ⟨texts, -⟩ := entries_of_text (fun a inA b inB =>
      text_apart (wellFormed_of_member soundA.2 inA) (wellFormed_of_member soundB.2 inB)) ends
    have entries := List.map_injective_iff.mpr entryText_injective texts
    have perm : (canonicalMembers members).Perm (canonicalMembers others) :=
      (sortByName_perm _).symm.trans (entries ▸ sortByName_perm _)
    obtain ⟨order, isOrder, texts⟩ := exists_order perm
    refine ⟨others, order, rfl, isOrder, alikeMembers_of_texts soundA.2 (fun member inside =>
      wellFormed_of_member soundB.2 (isOrder.mem_iff.mp inside))
      (fun member inside sound b soundB same => ?_) texts⟩
    have ends : text member.2 ++ [] = text b ++ [] := by rw [same]
    exact ih member inside sound soundB same ends (opening_eq sound soundB ends)

/-! ## Equal values -/

theorem canonicalItems_of_alike {items others : List Json} (sound : WellFormedItems items)
    (ih : ∀ item ∈ items, ∀ {b}, WellFormed item → Alike item b →
      canonicalJsonString item = canonicalJsonString b) (alike : AlikeItems items others) :
    canonicalItems items = canonicalItems others := by
  induction items generalizing others with
  | nil =>
    have none : others = [] := alike
    rw [none]
  | cons item items below =>
    obtain ⟨other, rest, rfl, first, later⟩ := alike
    rw [canonicalItems, canonicalItems, ih item List.mem_cons_self sound.1 first,
      below sound.2 (fun item inside => ih item (List.mem_cons_of_mem _ inside)) later]

theorem canonicalMembers_of_alike {members order : List (String × Json)}
    (sound : WellFormedMembers members)
    (ih : ∀ member ∈ members, ∀ {b}, WellFormed member.2 → Alike member.2 b →
      canonicalJsonString member.2 = canonicalJsonString b) (alike : AlikeMembers members order) :
    canonicalMembers members = canonicalMembers order := by
  induction members generalizing order with
  | nil =>
    have none : order = [] := alike
    rw [none]
  | cons member members below =>
    obtain ⟨other, rest, rfl, first, later⟩ := alike
    rw [canonicalMembers, canonicalMembers, ih member List.mem_cons_self sound.1 first,
      below sound.2 (fun member inside => ih member (List.mem_cons_of_mem _ inside)) later]

/-- The order of members does not show in the text. -/
theorem canonical_of_alike {a b : Json} (sound : WellFormed a) (alike : Alike a b) :
    canonicalJsonString a = canonicalJsonString b := by
  induction a using valueInduction generalizing b with
  | arr items ih =>
    obtain ⟨others, rfl, alike⟩ := alike
    rw [canonicalJsonString, canonicalJsonString, canonicalItems_of_alike sound ih alike]
  | obj members ih =>
    obtain ⟨others, order, rfl, perm, alike⟩ := alike
    have entries := canonicalMembers_of_alike sound.2 ih alike
    have distinct : ((canonicalMembers members).map Prod.fst).Nodup := by
      rw [canonicalMembers_eq, List.map_map]
      exact sound.1
    have same : (canonicalMembers members).Perm (canonicalMembers others) := by
      rw [entries, canonicalMembers_eq, canonicalMembers_eq]
      exact perm.map entryOf
    rw [canonicalJsonString, canonicalJsonString, sortByName_eq_of_perm distinct same]
  | _ => exact congrArg canonicalJsonString alike

/-- Two values have one canonical text exactly if they are equal up to the order of members. -/
theorem canonical_iff_alike {a b : Json} (soundA : WellFormed a) (soundB : WellFormed b) :
    canonicalJsonString a = canonicalJsonString b ↔ Alike a b :=
  ⟨fun same => alike_of_text soundA soundB (congrArg String.toList same), canonical_of_alike soundA⟩

/-! ## The metadata hash -/

/-- The metadata of an artifact. -/
def metadata (artifact : ContractArtifact) : Json :=
  .obj (("name", .str artifact.name) ::
    artifact.outputs.toList.map (fun outputs => ("outputs", outputs)))

theorem computeArtifactMetadataHash_eq (digests : Digests) (artifact : ContractArtifact) :
    computeArtifactMetadataHash digests artifact =
      sha256ToField digests (canonicalJsonString (metadata artifact)).toUTF8.toList := rfl

theorem wellFormed_metadata {artifact : ContractArtifact}
    (sound : ∀ outputs ∈ artifact.outputs, WellFormed outputs) : WellFormed (metadata artifact) := by
  cases held : artifact.outputs with
  | none =>
    unfold metadata
    rw [held]
    exact ⟨by simp, trivial, trivial⟩
  | some outputs =>
    unfold metadata
    rw [held]
    exact ⟨by simp, trivial, sound outputs held, trivial⟩

/-- Whatever the digest is, metadata of one text have one hash; a digest that tells their texts
apart tells other metadata apart. -/
theorem metadata_hash_iff {artifact other : ContractArtifact}
    (sound : ∀ outputs ∈ artifact.outputs, WellFormed outputs)
    (soundOther : ∀ outputs ∈ other.outputs, WellFormed outputs) :
    (∀ digests, computeArtifactMetadataHash digests artifact =
      computeArtifactMetadataHash digests other) ↔ Alike (metadata artifact) (metadata other) := by
  rw [← canonical_iff_alike (wellFormed_metadata sound) (wellFormed_metadata soundOther)]
  constructor
  · intro same
    refine utf8_injective ?_
    by_contra apart
    have hashes := same
      { poseidon2 := fun _ => 0
        sha256 := fun bytes =>
          if bytes = (canonicalJsonString (metadata artifact)).toUTF8.toList then 256 else 0
        base64 := fun _ => none }
    rw [computeArtifactMetadataHash_eq, computeArtifactMetadataHash_eq, sha256ToField,
      sha256ToField] at hashes
    dsimp only at hashes
    rw [if_pos rfl, if_neg (Ne.symm apart)] at hashes
    exact absurd hashes (by decide)
  · intro same digests
    rw [computeArtifactMetadataHash_eq, computeArtifactMetadataHash_eq, same]

/-- A value, and its members in the other order. -/
def inOrder : Json := .obj [("a", .arr [.negInt (-1), .float "1.5"]), ("b", .null)]

def outOfOrder : Json := .obj [("b", .null), ("a", .arr [.negInt (-1), .float "1.5"])]

theorem inOrder_alike : Alike inOrder outOfOrder :=
  ⟨_, [("a", .arr [.negInt (-1), .float "1.5"]), ("b", .null)], rfl, List.Perm.swap _ _ _,
    _, _, rfl, ⟨_, rfl, _, _, rfl, rfl, _, _, rfl, rfl, rfl⟩, _, _, rfl, rfl, rfl⟩

end AztecPxe.CanonicalJson
