import AztecPxe.CheckedDecoder

/-! Where the decoder can panic. A decoding comes to the types inside a type one after the other,
each at the place where the one before it ended. Which types and places these are can be said
without decoding: only the flags of options matter. A panic is a matter of one such type at one
such place, before the fields run out. -/
namespace AztecPxe.DecodeTotality
open AztecPxe Abi AbiCodec CheckedDecoder

/-- A type the decoding comes to, and the place of its first field. -/
structure Visit where
  typ : AbiType
  place : Nat

/-- The types a decoding comes to, in order, and the place after it. -/
structure Course where
  visits : List Visit
  stop : Nat

namespace Course

/-- A type, and then what is inside it. -/
def enter (v : Visit) (inside : Course) : Course := ⟨v :: inside.visits, inside.stop⟩

/-- A course, and then another from where it ends. -/
def andThen (first : Course) (next : Nat → Course) : Course :=
  ⟨first.visits ++ (next first.stop).visits, (next first.stop).stop⟩

/-- The same course, this many times. -/
def times (step : Nat → Course) : Nat → Nat → Course
  | 0, place => ⟨[], place⟩
  | n + 1, place => (step place).andThen (times step n)

end Course

section Courses
variable (fields : List Fr)

mutual

/-- The course of `decode_next` over a type at this place. -/
def course : AbiType → Nat → Course
  | .field, place => ⟨[⟨.field, place⟩], place + 1⟩
  | .boolean, place => ⟨[⟨.boolean, place⟩], place + 1⟩
  | .integer sign width, place => ⟨[⟨.integer sign width, place⟩], place + 1⟩
  | .string length, place => ⟨[⟨.string length, place⟩], place + length⟩
  | .array element length, place =>
    (Course.times (course element) length place).enter ⟨.array element length, place⟩
  | .tuple elements, place => (courseElements elements place).enter ⟨.tuple elements, place⟩
  | .struct name members, place =>
    if (AbiType.struct name members).isAddressStruct then ⟨[⟨.struct name members, place⟩], place + 1⟩
    else match members, (AbiType.struct name members).isOptionStruct,
        (AbiType.struct name members).isBoundedVecStruct with
      | [_, ⟨_, inner, _⟩], true, _ =>
        if fields[place]? = some 0 then ⟨[⟨.struct name members, place⟩], place + 1 + fieldCount inner⟩
        else (course inner (place + 1)).enter ⟨.struct name members, place⟩
      | [⟨_, .array element maxLen, _⟩, _], false, true =>
        ((Course.times (course element) maxLen place).andThen (fun place => ⟨[], place + 1⟩)).enter
          ⟨.struct name members, place⟩
      | [_, _], false, true => ⟨[⟨.struct name members, place⟩], place⟩
      | members', _, _ => (courseMembers members' place).enter ⟨.struct name members, place⟩

/-- The course over the members of a struct. -/
def courseMembers : List (Parameter AbiType) → Nat → Course
  | [], place => ⟨[], place⟩
  | ⟨_, t, _⟩ :: rest, place => (course t place).andThen (courseMembers rest)

/-- The course over a list of types. -/
def courseElements : List AbiType → Nat → Course
  | [], place => ⟨[], place⟩
  | t :: types, place => (course t place).andThen (courseElements types)

end

theorem course_struct {name : String} {members : List AbiParameter} {place : Nat} :
    course fields (.struct name members) place =
      match structDecoding name members with
      | .single => ⟨[⟨.struct name members, place⟩], place + 1⟩
      | .option inner =>
        if fields[place]? = some 0 then ⟨[⟨.struct name members, place⟩], place + 1 + fieldCount inner⟩
        else (course fields inner (place + 1)).enter ⟨.struct name members, place⟩
      | .items element maxLen =>
        ((Course.times (course fields element) maxLen place).andThen
          (fun place => ⟨[], place + 1⟩)).enter ⟨.struct name members, place⟩
      | .refused => ⟨[⟨.struct name members, place⟩], place⟩
      | .members => (courseMembers fields members place).enter ⟨.struct name members, place⟩ := by
  unfold structDecoding
  conv_lhs => unfold course
  cases address : (AbiType.struct name members).isAddressStruct with
  | true => rfl
  | false =>
    simp only [Bool.false_eq_true, if_false]
    generalize (AbiType.struct name members).isOptionStruct = option
    generalize (AbiType.struct name members).isBoundedVecStruct = bounded
    match members, option, bounded with
    | [], _, _ | [_], _, _ | _ :: _ :: _ :: _, _, _ => rfl
    | [_, _], true, _ => rfl
    | [⟨_, t, _⟩, _], false, false | [⟨_, t, _⟩, _], false, true => cases t <;> rfl

end Courses

/-! ## What can go wrong at a visit -/

/-- `raw as i128 - (1i128 << width)` leaves `i128`, for a number above the bound of the width. -/
def LeavesI128 (width raw : Nat) : Prop :=
  if width = 127 then 2 ^ 126 ≤ raw ∧ raw < 2 ^ 127 else 2 ^ 127 ≤ raw ∧ raw < 2 ^ 127 + 2 ^ width

/-- A bounded vector whose storage is no array, which the decoder refuses. -/
def Refused : AbiType → Prop
  | .struct name members => structDecoding name members = .refused
  | _ => False

/-- The decoding of this type at this place panics: a vector too large, a signed integer whose
subtraction leaves `i128`, or an absent value whose size leaves `usize`. -/
def Dangerous (itemBytes : Nat) (fields : List Fr) (v : Visit) : Prop :=
  match v.typ with
  | .field | .boolean => False
  | .integer sign width => sign = "signed" ∧ width < 128 ∧
    ∃ fr : Fr, fields[v.place]? = some fr ∧ LeavesI128 width (fr.val % 2 ^ 128)
  | .array _ length => isizeMax < length * itemBytes
  | .string length => isizeMax < length * 4
  | .tuple elements => isizeMax < elements.length * itemBytes
  | .struct name members => match structDecoding name members with
    | .option inner => fields[v.place]? = some 0 ∧ 2 ^ 64 ≤ fieldCount inner
    | .items _ maxLen => isizeMax < maxLen * itemBytes
    | _ => False

/-- The fields have not run out before this place, and the type is not refused. -/
def Reached (fields : List Fr) (v : Visit) : Prop := v.place ≤ fields.length ∧ ¬ Refused v.typ

/-- Nothing dangerous is met before the fields run out or a type is refused. -/
def Safe (itemBytes : Nat) (fields : List Fr) : List Visit → Prop
  | [] => True
  | v :: rest => Reached fields v → ¬ Dangerous itemBytes fields v ∧ Safe itemBytes fields rest

/-- The decoding ends with an error: a visit is not reached, or the last field is missing. -/
def Stuck (itemBytes : Nat) (fields : List Fr) (path : Course) : Prop :=
  Safe itemBytes fields path.visits ∧
    ((∃ v ∈ path.visits, ¬ Reached fields v) ∨ fields.length < path.stop)

/-- A decoding ends as its course says. -/
def Follows {α : Type} (itemBytes : Nat) (fields : List Fr) (result : Except Stop (α × Nat))
    (path : Course) : Prop :=
  match result with
  | .ok (_, next) => (∀ v ∈ path.visits, Reached fields v ∧ ¬ Dangerous itemBytes fields v) ∧
    next = path.stop ∧ next ≤ fields.length
  | .error (.panic _) => ¬ Safe itemBytes fields path.visits
  | .error (.err _) => Stuck itemBytes fields path

section Following
variable {itemBytes : Nat} {fields : List Fr} {α β : Type}

theorem safe_append {first second : List Visit} (safe : Safe itemBytes fields first)
    (later : Safe itemBytes fields second) : Safe itemBytes fields (first ++ second) := by
  induction first with
  | nil => exact later
  | cons v rest ih =>
    intro reached
    obtain ⟨harmless, safe⟩ := safe reached
    exact ⟨harmless, ih safe⟩

theorem safe_left {first second : List Visit} (safe : Safe itemBytes fields (first ++ second)) :
    Safe itemBytes fields first := by
  induction first with
  | nil => trivial
  | cons v rest ih =>
    intro reached
    obtain ⟨harmless, safe⟩ := safe reached
    exact ⟨harmless, ih safe⟩

theorem safe_right {first second : List Visit} (reached : ∀ v ∈ first, Reached fields v)
    (safe : Safe itemBytes fields (first ++ second)) : Safe itemBytes fields second := by
  induction first with
  | nil => exact safe
  | cons v rest ih =>
    exact ih (fun v inside => reached v (List.mem_cons_of_mem _ inside))
      (safe (reached v List.mem_cons_self)).2

theorem safe_of_all {visits : List Visit}
    (harmless : ∀ v ∈ visits, ¬ Dangerous itemBytes fields v) : Safe itemBytes fields visits := by
  induction visits with
  | nil => trivial
  | cons v rest ih =>
    exact fun _ => ⟨harmless v List.mem_cons_self,
      ih (fun v inside => harmless v (List.mem_cons_of_mem _ inside))⟩

theorem harmless_of_safe {visits : List Visit} (safe : Safe itemBytes fields visits)
    (reached : ∀ v ∈ visits, Reached fields v) : ∀ v ∈ visits, ¬ Dangerous itemBytes fields v := by
  induction visits with
  | nil => exact fun v visited => (List.not_mem_nil visited).elim
  | cons w rest ih =>
    obtain ⟨harmless, later⟩ := safe (reached w List.mem_cons_self)
    intro v visited
    rcases List.mem_cons.mp visited with rfl | visited
    · exact harmless
    · exact ih later (fun v visited => reached v (List.mem_cons_of_mem _ visited)) v visited

/-- A course that starts past the end is stuck. -/
theorem stuck_of_head {v : Visit} {inside : Course} (past : fields.length < v.place) :
    Stuck itemBytes fields (inside.enter v) :=
  have unreached : ¬ Reached fields v := fun reached => absurd reached.1 (Nat.not_le_of_lt past)
  ⟨fun reached => absurd reached unreached, .inl ⟨v, List.mem_cons_self, unreached⟩⟩

theorem stuck_single {v : Visit} {stop : Nat} (past : fields.length < v.place) :
    Stuck itemBytes fields ⟨[v], stop⟩ :=
  @stuck_of_head itemBytes fields v ⟨[], stop⟩ past

theorem stuck_nil {place : Nat} (past : fields.length < place) :
    Stuck itemBytes fields ⟨[], place⟩ := ⟨trivial, .inr past⟩

/-- What follows a visit that is not reached does not matter. -/
theorem safe_of_unreached {first second : List Visit} (safe : Safe itemBytes fields first)
    (unreached : ∃ v ∈ first, ¬ Reached fields v) : Safe itemBytes fields (first ++ second) := by
  induction first with
  | nil =>
    obtain ⟨v, inside, -⟩ := unreached
    cases inside
  | cons w rest ih =>
    intro reached
    obtain ⟨harmless, safe⟩ := safe reached
    refine ⟨harmless, ih safe ?_⟩
    obtain ⟨v, inside, beyond⟩ := unreached
    rcases List.mem_cons.mp inside with rfl | inside
    · exact absurd reached beyond
    · exact ⟨v, inside, beyond⟩

theorem Stuck.andThen {first : Course} {next : Nat → Course} (stuck : Stuck itemBytes fields first)
    (past : ∀ place, fields.length < place → Stuck itemBytes fields (next place)) :
    Stuck itemBytes fields (first.andThen next) := by
  obtain ⟨safe, ⟨v, inside, unreached⟩ | ended⟩ := stuck
  · exact ⟨safe_of_unreached safe ⟨v, inside, unreached⟩,
      .inl ⟨v, List.mem_append_left _ inside, unreached⟩⟩
  · obtain ⟨later, reason⟩ := past _ ended
    refine ⟨safe_append safe later, reason.imp_left ?_⟩
    rintro ⟨v, inside, unreached⟩
    exact ⟨v, List.mem_append_right _ inside, unreached⟩

/-- Decodings one after the other follow their courses one after the other. -/
theorem Follows.bind {first : Except Stop (α × Nat)} {path : Course} {next : Nat → Course}
    (follows : Follows itemBytes fields first path) (second : α → Nat → Except Stop (β × Nat))
    (past : ∀ place, fields.length < place → Stuck itemBytes fields (next place))
    (then_follows : ∀ a, path.stop ≤ fields.length →
      Follows itemBytes fields (second a path.stop) (next path.stop)) :
    Follows itemBytes fields (do
      let (a, cursor) ← first
      second a cursor) (path.andThen next) := by
  match first, follows with
  | .error (.panic _), unsafe_first => exact fun safe => unsafe_first (safe_left safe)
  | .error (.err _), stuck => exact Stuck.andThen stuck past
  | .ok (a, cursor), ⟨all, same, inside⟩ =>
    subst same
    have later := then_follows a inside
    rw [ok_bind]
    dsimp only
    match second a path.stop, later with
    | .error (.panic _), unsafe_second =>
      exact fun safe => unsafe_second (safe_right (fun v inside => (all v inside).1) safe)
    | .error (.err _), stuck =>
      refine ⟨safe_append (safe_of_all fun v inside => (all v inside).2) stuck.1,
        stuck.2.imp_left ?_⟩
      rintro ⟨v, inside, unreached⟩
      exact ⟨v, List.mem_append_right _ inside, unreached⟩
    | .ok (b, last), ⟨all', same', inside'⟩ =>
      refine ⟨fun v visited => ?_, same', inside'⟩
      exact (List.mem_append.mp visited).elim (all v) (all' v)

theorem Follows.map {result : Except Stop (α × Nat)} {path : Course}
    (follows : Follows itemBytes fields result path) (make : α → β) :
    Follows itemBytes fields (do
      let (a, cursor) ← result
      return (make a, cursor)) path := by
  match result, follows with
  | .error (.panic _), follows => exact follows
  | .error (.err _), follows => exact follows
  | .ok (a, cursor), follows => exact follows

section Entering
variable {v : Visit} (inside : v.place ≤ fields.length) (accepted : ¬ Refused v.typ)
include inside accepted

/-- A harmless visit changes nothing. -/
theorem Follows.enter {result : Except Stop (α × Nat)} {path : Course}
    (follows : Follows itemBytes fields result path) (harmless : ¬ Dangerous itemBytes fields v) :
    Follows itemBytes fields result (path.enter v) := by
  match result, follows with
  | .error (.panic _), unsafe_path => exact fun safe => unsafe_path (safe ⟨inside, accepted⟩).2
  | .error (.err _), ⟨safe, reason⟩ =>
    refine ⟨fun _ => ⟨harmless, safe⟩, reason.imp_left ?_⟩
    rintro ⟨w, visited, unreached⟩
    exact ⟨w, List.mem_cons_of_mem _ visited, unreached⟩
  | .ok (a, next), ⟨all, stops⟩ =>
    refine ⟨fun w visited => ?_, stops⟩
    rcases List.mem_cons.mp visited with rfl | visited
    · exact ⟨⟨inside, accepted⟩, harmless⟩
    · exact all w visited

/-- A dangerous visit is a panic. -/
theorem follows_panic {path : Course} (dangerous : Dangerous itemBytes fields v) {panic : Panic} :
    Follows (α := α) itemBytes fields (.error (.panic panic)) (path.enter v) :=
  fun safe => (safe ⟨inside, accepted⟩).1 dangerous

/-- A visit whose danger is the vector it asks for. -/
theorem Follows.reserve {bytes n : Nat} (dangerous : Dangerous itemBytes fields v ↔ isizeMax < n * bytes)
    {result : Except Stop (α × Nat)} {path : Course}
    (follows : Follows itemBytes fields result path) :
    Follows itemBytes fields (do
      withCapacity bytes n
      result) (path.enter v) := by
  unfold withCapacity
  split
  next fits =>
    exact follows.enter inside accepted (fun danger => Nat.not_lt_of_le fits (dangerous.mp danger))
  next large => exact follows_panic inside accepted (dangerous.mpr (Nat.lt_of_not_le large))

end Entering

/-! ## Reading fields -/

/-- A reading of so many fields, wherever that many are left. -/
theorem follows_read {read : Except Error (α × Nat)} {place n : Nat} (inside : place ≤ fields.length)
    (moves : ∀ value next, read = .ok (value, next) → Advanced fields place n next)
    (passes : place + n ≤ fields.length → ∃ value, read = .ok (value, place + n)) :
    Follows itemBytes fields (orErr read) ⟨[], place + n⟩ := by
  match done : read with
  | .ok (value, next) =>
    obtain ⟨same, room⟩ := moves value next rfl
    refine ⟨fun v visited => (List.not_mem_nil visited).elim, same, ?_⟩
    rcases room with none_read | room
    · omega
    · exact room
  | .error error =>
    refine ⟨trivial, .inr (Nat.lt_of_not_le fun room => ?_)⟩
    obtain ⟨value, ok⟩ := passes room
    cases ok

theorem follows_take {place : Nat} (inside : place ≤ fields.length) :
    Follows itemBytes fields (orErr (take fields place)) ⟨[], place + 1⟩ :=
  follows_read inside (fun _ _ => advanced_take) take_passes

theorem follows_decodeChars {place n : Nat} (inside : place ≤ fields.length) :
    Follows itemBytes fields (orErr (decodeChars fields n place)) ⟨[], place + n⟩ :=
  follows_read inside (fun _ _ => advanced_decodeChars) (decodeChars_passes n place)

theorem follows_skip {place n : Nat} (inside : place ≤ fields.length) (value : α) :
    Follows itemBytes fields (do
      let cursor ← orErr (skip fields n place)
      return (value, cursor)) ⟨[], place + n⟩ := by
  have read : Follows itemBytes fields (orErr ((skip fields n place).map (value, ·)))
      ⟨[], place + n⟩ := by
    refine follows_read inside (fun held next done => ?_) fun room => ?_
    · cases skipped : skip fields n place with
      | ok cursor =>
        rw [skipped] at done
        cases done
        exact advanced_skip skipped
      | error error =>
        rw [skipped] at done
        cases done
    · rw [skip_passes room]
      exact ⟨value, rfl⟩
  cases done : skip fields n place with
  | ok cursor => rwa [done] at read
  | error error => rwa [done] at read

end Following

/-! ## Past the end -/

section Past
variable {itemBytes : Nat} {fields : List Fr} {place : Nat}

theorem stuck_course (t : AbiType) (past : fields.length < place) :
    Stuck itemBytes fields (course fields t place) := by
  cases t with
  | field | boolean | integer | string => exact stuck_single past
  | array | tuple => exact stuck_of_head past
  | struct name members =>
    rw [course_struct]
    cases structDecoding name members with
    | single | refused => exact stuck_single past
    | items | members => exact stuck_of_head past
    | option inner =>
      dsimp only
      split
      · exact stuck_single past
      · exact stuck_of_head past

theorem stuck_times {step : Nat → Course} (n : Nat)
    (stuck : ∀ place, fields.length < place → Stuck itemBytes fields (step place))
    (past : fields.length < place) : Stuck itemBytes fields (Course.times step n place) := by
  induction n generalizing place with
  | zero => exact stuck_nil past
  | succ n ih => exact (stuck place past).andThen fun _ past => ih past

theorem stuck_courseElements (types : List AbiType) (past : fields.length < place) :
    Stuck itemBytes fields (courseElements fields types place) := by
  induction types generalizing place with
  | nil => exact stuck_nil past
  | cons t types ih => exact (stuck_course t past).andThen fun _ past => ih past

theorem stuck_courseMembers (members : List AbiParameter) (past : fields.length < place) :
    Stuck itemBytes fields (courseMembers fields members place) := by
  induction members generalizing place with
  | nil => exact stuck_nil past
  | cons p rest ih => exact (stuck_course p.typ past).andThen fun _ past => ih past

end Past

/-! ## Integers -/

/-- The two numbers the subtraction is between, as `i128`. -/
theorem asI128_raw (r : Nat) (small : r < 2 ^ 128) :
    asI128 r = if r < 2 ^ 127 then (r : Int) else r - 2 ^ 128 := by
  split
  next low => exact asI128_of_small (by omega) (by omega)
  next high => exact asI128_of_large (by omega) (by omega)

theorem asI128_bound {width : Nat} (narrow : width < 128) :
    asI128 (2 ^ width) = if width = 127 then -2 ^ 127 else ((2 ^ width : Nat) : Int) := by
  split
  next widest =>
    subst widest
    rfl
  next other =>
    have bound : 2 ^ width ≤ 2 ^ 126 := Nat.pow_le_pow_right (by decide) (by omega)
    have cast : (2 : Int) ^ width = ((2 ^ width : Nat) : Int) := by push_cast; rfl
    rw [cast]
    generalize 2 ^ width = power at bound
    exact asI128_of_small (by omega) (by omega)

/-- The subtraction panics just where it leaves `i128`. -/
theorem decodeIntegerChecked_cases {width : Nat} (positive : width ≠ 0) (sign : String) (fr : Fr) :
    (sign = "signed" ∧ width < 128 ∧ LeavesI128 width (fr.val % 2 ^ 128) ∧
      decodeIntegerChecked sign width fr = .error (.panic .subtractOverflow)) ∨
    ¬ (sign = "signed" ∧ width < 128 ∧ LeavesI128 width (fr.val % 2 ^ 128)) ∧
      ∃ value, decodeIntegerChecked sign width fr = .ok value := by
  have cast : (fr.val : Int) % 2 ^ 128 = ((fr.val % 2 ^ 128 : Nat) : Int) := by push_cast; rfl
  have small : fr.val % 2 ^ 128 < 2 ^ 128 := Nat.mod_lt _ (by decide)
  unfold decodeIntegerChecked
  rw [cast]
  generalize fr.val % 2 ^ 128 = r at small
  by_cases signed : sign = "signed"
  swap
  · exact .inr ⟨fun wrong => signed wrong.1, _, if_neg signed⟩
  dsimp only
  rw [if_pos signed]
  by_cases wide : 128 ≤ width
  · exact .inr ⟨fun wrong => absurd wrong.2.1 (Nat.not_lt_of_le wide), _, if_pos wide⟩
  have narrow : width < 128 := Nat.lt_of_not_le wide
  have halves : 2 ^ width = 2 * 2 ^ (width - 1) := by
    rw [← Nat.pow_succ', Nat.succ_eq_add_one, Nat.sub_add_cancel (Nat.pos_of_ne_zero positive)]
  have half_cast : ((2 : Int) ^ (width - 1)) = ((2 ^ (width - 1) : Nat) : Int) := by push_cast; rfl
  rw [if_neg wide, if_neg positive, asI128_raw r small, asI128_bound narrow, half_cast]
  unfold LeavesI128
  by_cases widest : width = 127
  · subst widest
    simp only [if_true]
    by_cases low : r < 2 ^ 126
    · exact .inr ⟨by omega, _, if_neg (by omega)⟩
    · rw [if_pos (by omega)]
      by_cases middle : r < 2 ^ 127
      · refine .inl ⟨signed, by omega, ⟨by omega, middle⟩, if_neg ?_⟩
        rw [if_pos middle]
        omega
      · refine .inr ⟨by omega, _, if_pos ?_⟩
        rw [if_neg middle]
        omega
  · simp only [if_neg widest]
    have bound : 2 ^ width ≤ 2 ^ 126 := Nat.pow_le_pow_right (by decide) (by omega)
    rw [halves] at bound ⊢
    clear half_cast halves
    generalize 2 ^ (width - 1) = half at bound ⊢
    by_cases low : r < half
    · exact .inr ⟨by omega, _, if_neg (by omega)⟩
    · rw [if_pos (by omega)]
      by_cases middle : r < 2 ^ 127
      · refine .inr ⟨by omega, _, if_pos ?_⟩
        rw [if_pos middle]
        omega
      · rw [if_neg middle]
        by_cases high : r < 2 ^ 127 + 2 * half
        · exact .inl ⟨signed, narrow, ⟨by omega, high⟩, if_neg (by omega)⟩
        · exact .inr ⟨by omega, _, if_pos (by omega)⟩

/-! ## The decoder follows its course -/

section Decoder
variable {itemBytes : Nat} {fields : List Fr}

theorem follows_items {decode : Nat → Except Stop (AbiDecoded × Nat)} {step : Nat → Course}
    (follows : ∀ place, place ≤ fields.length → Follows itemBytes fields (decode place) (step place))
    (past : ∀ place, fields.length < place → Stuck itemBytes fields (step place)) (n : Nat)
    {place : Nat} (inside : place ≤ fields.length) :
    Follows itemBytes fields (decodeItemsChecked decode n place) (Course.times step n place) := by
  induction n generalizing place with
  | zero => exact ⟨fun v visited => (List.not_mem_nil visited).elim, rfl, inside⟩
  | succ n ih =>
    exact (follows place inside).bind
      (fun item cursor => do
        let found ← decodeItemsChecked decode n cursor
        return (item :: found.1, found.2))
      (fun _ beyond => stuck_times n past beyond) fun item room => (ih room).map (item :: ·)

theorem follows_elements {types : List AbiType}
    (each : ∀ t ∈ types, ∀ place, place ≤ fields.length →
      Follows itemBytes fields (decodeNextChecked itemBytes t fields place) (course fields t place))
    {place : Nat} (inside : place ≤ fields.length) :
    Follows itemBytes fields (decodeElementsChecked itemBytes types fields place)
      (courseElements fields types place) := by
  induction types generalizing place with
  | nil => exact ⟨fun v visited => (List.not_mem_nil visited).elim, rfl, inside⟩
  | cons t types ih =>
    exact (each t List.mem_cons_self place inside).bind
      (fun item cursor => do
        let found ← decodeElementsChecked itemBytes types fields cursor
        return (item :: found.1, found.2))
      (fun _ beyond => stuck_courseElements types beyond) fun item room =>
        (ih (fun t listed => each t (List.mem_cons_of_mem _ listed)) room).map (item :: ·)

theorem follows_members {members : List AbiParameter}
    (each : ∀ p ∈ members, ∀ place, place ≤ fields.length →
      Follows itemBytes fields (decodeNextChecked itemBytes p.typ fields place)
        (course fields p.typ place))
    (map : List (String × AbiDecoded)) {place : Nat} (inside : place ≤ fields.length) :
    Follows itemBytes fields (decodeMembersChecked itemBytes members map fields place)
      (courseMembers fields members place) := by
  induction members generalizing place map with
  | nil => exact ⟨fun v visited => (List.not_mem_nil visited).elim, rfl, inside⟩
  | cons p rest ih =>
    exact (each p List.mem_cons_self place inside).bind
      (fun value cursor =>
        decodeMembersChecked itemBytes rest (insertMember p.name value map) fields cursor)
      (fun _ beyond => stuck_courseMembers rest beyond) fun value room =>
        ih (fun p listed => each p (List.mem_cons_of_mem _ listed)) _ room

/-- One field, read at a harmless visit. -/
theorem follows_single {t : AbiType} {place : Nat} (inside : place ≤ fields.length)
    (accepted : ¬ Refused t) (harmless : ¬ Dangerous itemBytes fields ⟨t, place⟩)
    (make : Fr → AbiDecoded) :
    Follows itemBytes fields (do
      let (fr, cursor) ← orErr (take fields place)
      return (make fr, cursor)) ⟨[⟨t, place⟩], place + 1⟩ :=
  ((follows_take inside).map make).enter (v := ⟨t, place⟩) inside accepted harmless

theorem follows_integer {sign : String} {width : Nat} (positive : width ≠ 0) {place : Nat}
    (inside : place ≤ fields.length) :
    Follows itemBytes fields (decodeNextChecked itemBytes (.integer sign width) fields place)
      (course fields (.integer sign width) place) := by
  unfold decodeNextChecked course
  have v_accepted : ¬ Refused (.integer sign width) := id
  cases held : fields[place]? with
  | none =>
    have missing : fields.length ≤ place := List.getElem?_eq_none_iff.mp held
    have taken : ∃ error, take fields place = .error error := by
      unfold take
      rw [held]
      exact ⟨_, rfl⟩
    obtain ⟨error, taken⟩ := taken
    rw [taken]
    refine ⟨fun _ => ⟨?_, trivial⟩, .inr (Nat.lt_succ_of_le missing)⟩
    rintro ⟨-, -, fr, found, -⟩
    rw [held] at found
    cases found
  | some fr =>
    have taken : take fields place = .ok (fr, place + 1) := by
      unfold take
      rw [held]
    have room : place + 1 ≤ fields.length := (List.getElem?_eq_some_iff.mp held).1
    rw [taken]
    have danger : Dangerous itemBytes fields ⟨.integer sign width, place⟩ ↔
        sign = "signed" ∧ width < 128 ∧ LeavesI128 width (fr.val % 2 ^ 128) := by
      constructor
      · rintro ⟨signed, narrow, fr', found, leaves⟩
        cases held.symm.trans found
        exact ⟨signed, narrow, leaves⟩
      · rintro ⟨signed, narrow, leaves⟩
        exact ⟨signed, narrow, fr, held, leaves⟩
    rcases decodeIntegerChecked_cases positive sign fr with
      ⟨signed, narrow, leaves, panics⟩ | ⟨stays, value, decoded⟩
    · show Follows itemBytes fields (decodeIntegerChecked sign width fr >>= _) _
      rw [panics]
      exact fun safe => (safe ⟨inside, v_accepted⟩).1 (danger.mpr ⟨signed, narrow, leaves⟩)
    · show Follows itemBytes fields (decodeIntegerChecked sign width fr >>= _) _
      rw [decoded]
      refine ⟨fun v visited => ?_, rfl, room⟩
      cases List.mem_singleton.mp visited
      exact ⟨⟨inside, v_accepted⟩, fun dangerous => stays (danger.mp dangerous)⟩

/-- The option arm: the flag, and then the value or as many fields as it would take. -/
theorem follows_option {v : Visit} {inner : AbiType} (accepted : Accepted inner)
    (follows : ∀ place, place ≤ fields.length →
      Follows itemBytes fields (decodeNextChecked itemBytes inner fields place)
        (course fields inner place))
    (danger : Dangerous itemBytes fields v ↔ fields[v.place]? = some 0 ∧ 2 ^ 64 ≤ fieldCount inner)
    (plain : ¬ Refused v.typ) (inside : v.place ≤ fields.length) :
    Follows itemBytes fields (do
      let (isSome, cursor) ← orErr (take fields v.place)
      if isSome = 0 then do
        let valueSize ← (abiTypeSize inner).mapError Stop.panic
        let cursor ← orErr (skip fields valueSize cursor)
        return (.none, cursor)
      else decodeNextChecked itemBytes inner fields cursor)
      (if fields[v.place]? = some 0 then ⟨[v], v.place + 1 + fieldCount inner⟩
        else (course fields inner (v.place + 1)).enter v) := by
  unfold take
  cases held : fields[v.place]? with
  | none =>
    have missing : fields.length ≤ v.place := List.getElem?_eq_none_iff.mp held
    rw [if_neg (by simp)]
    have stuck : Stuck itemBytes fields (course fields inner (v.place + 1)) :=
      stuck_course inner (Nat.lt_succ_of_le missing)
    refine Follows.enter inside plain stuck fun dangerous => ?_
    rw [held] at danger
    cases (danger.mp dangerous).1
  | some fr =>
    have room : v.place + 1 ≤ fields.length := (List.getElem?_eq_some_iff.mp held).1
    show Follows itemBytes fields (if fr = 0 then _ else _) _
    by_cases absent : fr = 0
    · rw [if_pos absent, if_pos (by rw [absent])]
      obtain ⟨small, large⟩ := measures_abiTypeSize accepted
      rcases Nat.lt_or_ge (fieldCount inner) (2 ^ 64) with fits | overflow
      · rw [small fits]
        exact (follows_skip room AbiDecoded.none).enter inside plain
          fun dangerous => Nat.not_lt_of_le (danger.mp dangerous).2 fits
      · obtain ⟨panic, failed⟩ := large overflow
        have dangerous := danger.mpr ⟨by rw [held, absent], overflow⟩
        rw [failed]
        show Follows itemBytes fields (.error (.panic panic))
          (Course.enter v ⟨[], v.place + 1 + fieldCount inner⟩)
        exact follows_panic inside plain dangerous
    · rw [if_neg absent, if_neg (by simp [absent])]
      refine (follows _ room).enter inside plain fun dangerous => ?_
      have zero := (danger.mp dangerous).1
      rw [held] at zero
      exact absent (Option.some.inj zero)

/-- The decoding of an accepted type ends as its course says. -/
theorem follows_decodeNext {t : AbiType} (accepted : Accepted t) {place : Nat}
    (inside : place ≤ fields.length) :
    Follows itemBytes fields (decodeNextChecked itemBytes t fields place) (course fields t place) := by
  induction t generalizing place with
  | field => exact follows_single inside id id .field
  | boolean => exact follows_single inside id id fun fr => .boolean (fr ≠ 0)
  | integer sign width => exact follows_integer (accepted_width accepted) inside
  | string length =>
    exact ((follows_decodeChars inside).map fun chars => AbiDecoded.string (String.ofList chars)).reserve
      (v := ⟨.string length, place⟩) inside id Iff.rfl
  | array element length ih =>
    have items := follows_items (fun _ room => ih (accepted_element accepted) room)
      (fun _ past => stuck_course element past) length inside
    exact (items.map AbiDecoded.array).reserve (v := ⟨.array element length, place⟩) inside id Iff.rfl
  | tuple elements ih =>
    have items := follows_elements
      (fun t listed _ room => ih t listed (accepted_tuple accepted listed) room) inside
    exact (items.map AbiDecoded.tuple).reserve (v := ⟨.tuple elements, place⟩) inside id Iff.rfl
  | struct name members ih storageIh =>
    rw [decodeNextChecked_struct, course_struct]
    have refusal : Refused (.struct name members) ↔ structDecoding name members = .refused := Iff.rfl
    have each : ∀ p ∈ members, ∀ place, place ≤ fields.length →
        Follows itemBytes fields (decodeNextChecked itemBytes p.typ fields place)
          (course fields p.typ place) :=
      fun p listed _ room => ih p listed (accepted_member accepted listed) room
    cases kind : structDecoding name members with
    | single =>
      rw [kind] at refusal
      have harmless : ¬ Dangerous itemBytes fields ⟨.struct name members, place⟩ := by
        simp [Dangerous, kind]
      exact follows_single inside (fun refused => nomatch refusal.mp refused) harmless
        fun fr => if (AbiType.struct name members).isAztecAddressStruct then .address ⟨fr⟩ else .field fr
    | option inner =>
      obtain ⟨p, q, rfl, rfl⟩ := structDecoding_option kind
      rw [kind] at refusal
      have harm : Dangerous itemBytes fields ⟨.struct name [p, q], place⟩ ↔
          fields[place]? = some 0 ∧ 2 ^ 64 ≤ fieldCount q.typ := by simp [Dangerous, kind]
      exact follows_option (v := ⟨.struct name [p, q], place⟩)
        (accepted_member accepted (List.mem_cons_of_mem _ List.mem_cons_self)) (each q (by simp)) harm
        (fun refused => nomatch refusal.mp refused) inside
    | items element maxLen =>
      obtain ⟨p, q, rfl, storage⟩ := structDecoding_items kind
      rw [kind] at refusal
      have harm : Dangerous itemBytes fields ⟨.struct name [p, q], place⟩ ↔
          isizeMax < maxLen * itemBytes := by simp [Dangerous, kind]
      have element_accepted : Accepted element := by
        have array_accepted := accepted_member accepted (p := p) List.mem_cons_self
        rw [storage] at array_accepted
        exact accepted_element array_accepted
      have items := follows_items
        (fun _ room => storageIh p List.mem_cons_self element maxLen storage element_accepted room)
        (fun _ past => stuck_course element past) maxLen inside
      have vector : Follows itemBytes fields (do
          let items ← decodeItemsChecked (decodeNextChecked itemBytes element fields) maxLen place
          let len ← orErr (take fields items.2)
          return (AbiDecoded.array (items.1.take len.1.toUsize), len.2))
          ((Course.times (course fields element) maxLen place).andThen fun place => ⟨[], place + 1⟩) :=
        items.bind
          (fun items cursor => do
            let len ← orErr (take fields cursor)
            return (AbiDecoded.array (items.take len.1.toUsize), len.2))
          (fun _ past => stuck_nil (Nat.lt_succ_of_lt past))
          fun items room => (follows_take room).map fun len => AbiDecoded.array (items.take len.toUsize)
      exact vector.reserve (v := ⟨.struct name [p, q], place⟩) inside
        (fun refused => nomatch refusal.mp refused) harm
    | refused =>
      rw [kind] at refusal
      have unreached : ¬ Reached fields ⟨.struct name members, place⟩ :=
        fun reached => reached.2 (refusal.mpr rfl)
      exact ⟨fun reached => absurd reached unreached, .inl ⟨_, List.mem_cons_self, unreached⟩⟩
    | members =>
      rw [kind] at refusal
      have harmless : ¬ Dangerous itemBytes fields ⟨.struct name members, place⟩ := by
        simp [Dangerous, kind]
      exact ((follows_members each [] inside).map AbiDecoded.struct).enter
        (v := ⟨.struct name members, place⟩) inside (fun refused => nomatch refusal.mp refused) harmless

end Decoder

/-! ## How far a course goes -/

/-- A course from this place visits nothing past its end, and is no longer than this. -/
structure Within (path : Course) (place n : Nat) : Prop where
  forward : place ≤ path.stop
  visits : ∀ v ∈ path.visits, v.place ≤ path.stop
  short : path.stop ≤ place + n

section Lengths
variable {fields : List Fr} {place : Nat}

theorem within_nil (place n : Nat) : Within ⟨[], place⟩ place n :=
  ⟨Nat.le_refl _, fun _ visited => (List.not_mem_nil visited).elim, Nat.le_add_right _ _⟩

theorem within_single {t : AbiType} {m n : Nat} (fits : m ≤ n) :
    Within ⟨[⟨t, place⟩], place + m⟩ place n := by
  refine ⟨Nat.le_add_right _ _, fun v visited => ?_, Nat.add_le_add_left fits _⟩
  cases List.mem_singleton.mp visited
  exact Nat.le_add_right _ _

theorem Within.enter {path : Course} {t : AbiType} {n : Nat} (within : Within path place n) :
    Within (path.enter ⟨t, place⟩) place n := by
  refine ⟨within.forward, fun v visited => ?_, within.short⟩
  rcases List.mem_cons.mp visited with rfl | visited
  · exact within.forward
  · exact within.visits v visited

theorem Within.andThen {first : Course} {next : Nat → Course} {m n : Nat}
    (within : Within first place m) (later : ∀ place, Within (next place) place n) :
    Within (first.andThen next) place (m + n) := by
  have rest := later first.stop
  refine ⟨within.forward.trans rest.forward, fun v visited => ?_, ?_⟩
  · rcases List.mem_append.mp visited with visited | visited
    · exact (within.visits v visited).trans rest.forward
    · exact rest.visits v visited
  · have bound := rest.short
    have bound' := within.short
    show (next first.stop).stop ≤ place + (m + n)
    omega

theorem within_times {step : Nat → Course} {m : Nat} (within : ∀ place, Within (step place) place m)
    (n place : Nat) : Within (Course.times step n place) place (n * m) := by
  induction n generalizing place with
  | zero => exact within_nil place _
  | succ n ih =>
    have total : m + n * m = (n + 1) * m := by rw [Nat.succ_mul, Nat.add_comm]
    rw [← total]
    exact (within place).andThen ih

theorem within_courseElements {types : List AbiType}
    (each : ∀ t ∈ types, ∀ place, Within (course fields t place) place (fieldCount t)) (place : Nat) :
    Within (courseElements fields types place) place (elementCounts types) := by
  induction types generalizing place with
  | nil => exact within_nil place _
  | cons t types ih =>
    exact (each t List.mem_cons_self place).andThen
      (ih fun t listed => each t (List.mem_cons_of_mem _ listed))

theorem within_courseMembers {members : List AbiParameter}
    (each : ∀ p ∈ members, ∀ place, Within (course fields p.typ place) place (fieldCount p.typ))
    (place : Nat) :
    Within (courseMembers fields members place) place (memberCounts members) := by
  induction members generalizing place with
  | nil => exact within_nil place _
  | cons p rest ih =>
    exact (each p List.mem_cons_self place).andThen
      (ih fun p listed => each p (List.mem_cons_of_mem _ listed))

/-- The decoding of an accepted type takes no more fields than its size. -/
theorem within_course {t : AbiType} (accepted : Accepted t) (place : Nat) :
    Within (course fields t place) place (fieldCount t) := by
  induction t generalizing place with
  | field | boolean | integer => exact within_single (Nat.le_refl 1)
  | string length => exact within_single (Nat.le_refl length)
  | array element length ih =>
    exact (within_times (ih (accepted_element accepted)) length place).enter
  | tuple elements ih =>
    exact (within_courseElements (fun t listed => ih t listed (accepted_tuple accepted listed))
      place).enter
  | struct name members ih storageIh =>
    rw [course_struct]
    have each : ∀ p ∈ members, Accepted p.typ := fun p listed => accepted_member accepted listed
    cases kind : structDecoding name members with
    | single => exact within_single (fieldCount_pos accepted)
    | refused => exact within_single (Nat.zero_le _)
    | members =>
      exact (within_courseMembers (fun p listed => ih p listed (each p listed)) place).enter
    | option inner =>
      obtain ⟨p, q, rfl, rfl⟩ := structDecoding_option kind
      have flag := fieldCount_pos (each p List.mem_cons_self)
      have value : Within (course fields q.typ (place + 1)) (place + 1) (fieldCount q.typ) :=
        ih q (by simp) (each q (by simp)) _
      show Within (if _ then _ else _) place (memberCounts [p, q])
      rw [memberCounts_two]
      split
      · rw [Nat.add_assoc]
        exact within_single (by omega)
      · refine Within.enter ⟨?_, value.visits, ?_⟩
        · exact (Nat.le_succ place).trans value.forward
        · have bound := value.short
          omega
    | items element maxLen =>
      obtain ⟨p, q, rfl, storage⟩ := structDecoding_items kind
      have length := fieldCount_pos (each q (by simp))
      have array_accepted := each p List.mem_cons_self
      rw [storage] at array_accepted
      have element_within := storageIh p List.mem_cons_self element maxLen storage
        (accepted_element array_accepted)
      have last (place : Nat) : Within ⟨[], place + 1⟩ place (fieldCount q.typ) :=
        ⟨Nat.le_succ _, fun v visited => (List.not_mem_nil visited).elim,
          Nat.add_le_add_left length _⟩
      have items := (within_times element_within maxLen place).andThen last
      show Within _ place (memberCounts [p, q])
      rw [memberCounts_two, storage]
      exact items.enter

end Lengths

/-! ## When decoding is total -/

section Total
variable {itemBytes : Nat} {fields : List Fr} {types : List AbiType}

theorem Follows.panics_iff {α : Type} {result : Except Stop (α × Nat)} {path : Course}
    (follows : Follows itemBytes fields result path) :
    (∃ panic, result = .error (.panic panic)) ↔ ¬ Safe itemBytes fields path.visits := by
  match result, follows with
  | .error (.panic panic), unsafe_path => exact ⟨fun _ => unsafe_path, fun _ => ⟨panic, rfl⟩⟩
  | .error (.err _), ⟨safe, _⟩ => exact ⟨fun ⟨_, same⟩ => (nomatch same), fun wrong => absurd safe wrong⟩
  | .ok _, ⟨all, _⟩ =>
    exact ⟨fun ⟨_, same⟩ => (nomatch same),
      fun wrong => absurd (safe_of_all fun v visited => (all v visited).2) wrong⟩

theorem Follows.succeeds_iff {α : Type} {result : Except Stop (α × Nat)} {path : Course}
    (follows : Follows itemBytes fields result path) :
    (∃ found, result = .ok found) ↔
      (∀ v ∈ path.visits, Reached fields v ∧ ¬ Dangerous itemBytes fields v) ∧
        path.stop ≤ fields.length := by
  match result, follows with
  | .ok found, ⟨all, same, inside⟩ => exact ⟨fun _ => ⟨all, same ▸ inside⟩, fun _ => ⟨found, rfl⟩⟩
  | .error (.panic _), unsafe_path =>
    refine ⟨fun ⟨_, same⟩ => (nomatch same), fun ⟨all, _⟩ => ?_⟩
    exact absurd (safe_of_all fun v visited => (all v visited).2) unsafe_path
  | .error (.err _), ⟨_, reason⟩ =>
    refine ⟨fun ⟨_, same⟩ => (nomatch same), fun ⟨all, inside⟩ => ?_⟩
    rcases reason with ⟨v, visited, unreached⟩ | ended
    · exact absurd (all v visited).1 unreached
    · exact absurd inside (Nat.not_le_of_lt ended)

/-- One type or many, the decoder ends as it does over the list. -/
theorem decodeFromAbiChecked_ends (itemBytes : Nat) (types : List AbiType) (fields : List Fr) :
    (decodeFromAbiChecked itemBytes types fields).map (fun _ => ()) =
      (decodeElementsChecked itemBytes types fields 0).map (fun _ => ()) := by
  match types with
  | [] => rfl
  | [t] =>
    show ((decodeNextChecked itemBytes t fields 0) >>= _).map _ =
      ((decodeNextChecked itemBytes t fields 0) >>= _).map _
    cases decodeNextChecked itemBytes t fields 0 with
    | ok found => rfl
    | error stop => rfl
  | t :: u :: rest =>
    show ((decodeElementsChecked itemBytes (t :: u :: rest) fields 0) >>= _).map _ = _
    cases decodeElementsChecked itemBytes (t :: u :: rest) fields 0 with
    | ok found => rfl
    | error stop => rfl

theorem panics_of_ends {α β : Type} {first : Except Stop α} {second : Except Stop β}
    (same : first.map (fun _ => ()) = second.map (fun _ => ())) :
    ((∃ panic, first = .error (.panic panic)) ↔ ∃ panic, second = .error (.panic panic)) ∧
      ((∃ found, first = .ok found) ↔ ∃ found, second = .ok found) := by
  match first, second, same with
  | .ok a, .ok b, _ => simp
  | .error stop, .error stop', same =>
    cases same
    simp

/-- Decoding accepted types never panics, and succeeds with enough fields, exactly when nothing
dangerous is met and, with enough fields, nothing is refused. -/
theorem decoding_total_iff (itemBytes : Nat) (types : List AbiType) (fields : List Fr)
    (accepted : ∀ t ∈ types, Accepted t) :
    ((∀ panic, decodeFromAbiChecked itemBytes types fields ≠ .error (.panic panic)) ∧
      (elementCounts types ≤ fields.length →
        ∃ value, decodeFromAbiChecked itemBytes types fields = .ok value)) ↔
      Safe itemBytes fields (courseElements fields types 0).visits ∧
      (elementCounts types ≤ fields.length →
        ∀ v ∈ (courseElements fields types 0).visits, ¬ Refused v.typ) := by
  have follows : Follows itemBytes fields (decodeElementsChecked itemBytes types fields 0)
      (courseElements fields types 0) :=
    follows_elements (fun t listed _ room => follows_decodeNext (accepted t listed) room)
      (Nat.zero_le _)
  have within : Within (courseElements fields types 0) 0 (elementCounts types) :=
    within_courseElements (fun t listed place => within_course (accepted t listed) place) 0
  obtain ⟨panics, succeeds⟩ := panics_of_ends (decodeFromAbiChecked_ends itemBytes types fields)
  rw [follows.panics_iff] at panics
  rw [← not_exists, panics, not_not, succeeds, follows.succeeds_iff]
  refine and_congr_right fun safe => imp_congr_right fun enough => ?_
  have stop : (courseElements fields types 0).stop ≤ fields.length := by
    have short := within.short
    omega
  constructor
  · exact fun ⟨all, _⟩ v visited => (all v visited).1.2
  · intro accepted
    have reached : ∀ v ∈ (courseElements fields types 0).visits, Reached fields v :=
      fun v visited => ⟨(within.visits v visited).trans stop, accepted v visited⟩
    exact ⟨fun v visited => ⟨reached v visited, harmless_of_safe safe reached v visited⟩, stop⟩

/-- A small signed integer and a field, with as many fields. -/
theorem decoding_total_sample :
    (∀ panic, decodeFromAbiChecked 48 [.integer "signed" 8, .field] [250, 7] ≠ .error (.panic panic)) ∧
      (elementCounts [.integer "signed" 8, .field] ≤ ([250, 7] : List Fr).length →
        ∃ value, decodeFromAbiChecked 48 [.integer "signed" 8, .field] [250, 7] = .ok value) := by
  have accepted : ∀ t ∈ [AbiType.integer "signed" 8, .field], Accepted t := by
    intro t listed
    rcases List.mem_cons.mp listed with rfl | listed
    · exact ⟨"", rfl⟩
    · cases List.mem_singleton.mp listed
      exact ⟨"", rfl⟩
  have small : ¬ Dangerous 48 [250, 7] ⟨.integer "signed" 8, 0⟩ := by
    rintro ⟨-, -, fr, found, leaves⟩
    cases found
    rw [LeavesI128, if_neg (by decide)] at leaves
    exact absurd leaves.1 (by decide)
  refine (decoding_total_iff 48 _ [250, 7] accepted).mpr
    ⟨fun _ => ⟨small, fun _ => ⟨id, trivial⟩⟩, fun _ v visited => ?_⟩
  rcases List.mem_cons.mp visited with rfl | visited
  · exact id
  · cases List.mem_singleton.mp visited
    exact id

/-- Accepted types the decoder panics on, and one it refuses with enough fields. -/
theorem decoding_not_total :
    ((AbiType.integer "signed" 127).validate "x" = [] ∧
      decodeFromAbiChecked 48 [.integer "signed" 127] [Fin.ofNat frModulus (2 ^ 126)] =
        .error (.panic .subtractOverflow)) ∧
    ((AbiType.integer "signed" 64).validate "x" = [] ∧
      decodeFromAbiChecked 48 [.integer "signed" 64] [Fin.ofNat frModulus (2 ^ 127)] =
        .error (.panic .subtractOverflow)) ∧
    ((AbiType.array .field (2 ^ 64 - 1)).validate "x" = [] ∧
      decodeFromAbiChecked 48 [.array .field (2 ^ 64 - 1)] [] = .error (.panic .capacityOverflow)) ∧
    (AbiType.struct "bounded_vec::BoundedVec" [⟨"storage", .field, none⟩, ⟨"len", .field, none⟩]).validate
        "x" = [] ∧
      decodeFromAbiChecked 48
        [.struct "bounded_vec::BoundedVec" [⟨"storage", .field, none⟩, ⟨"len", .field, none⟩]] [7, 1] =
        .error (.err (.abi "BoundedVec storage must be an Array")) :=
  ⟨⟨rfl, rfl⟩, ⟨rfl, rfl⟩, ⟨rfl, rfl⟩, rfl, rfl⟩

end Total

end AztecPxe.DecodeTotality
