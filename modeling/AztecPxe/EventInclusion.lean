import AztecPxe.UtilityOracle

/-! Which events `validate_and_store_event` lets into the store. An event is on chain when
the effect of its transaction lists the nullifier the kernel made of its commitment. The
check looks for another value, the same two fields hashed under the separator zero, and
makes way where the effect has no list or the anchor is at block zero. -/
namespace AztecPxe.EventInclusion
open AztecPxe UtilityOracle Hash

/-- The block of a transaction's effect. -/
def effectBlock (effect : Json) : Option Nat := (effect.field "l2BlockNumber").bind Json.asU64

/-- The nullifiers of a transaction's effect, where it has an array of them. -/
def effectNullifiers (effect : Json) : Option (List Json) :=
  (effect.field "nullifiers").bind Json.asArray

/-- The effect lists this value among its nullifiers. -/
def Lists (effect : Json) (value : Fr) : Prop :=
  ∃ nullifiers, effectNullifiers effect = some nullifiers ∧
    ∃ nullifier ∈ nullifiers, nullifier.asStr = some (hex32 value.val)

instance (effect : Json) (value : Fr) : Decidable (Lists effect value) :=
  decidable_of_iff ((effectNullifiers effect).any
    (·.any (fun nullifier => nullifier.asStr == some (hex32 value.val)))) (by simp [Lists, Option.any_eq_true])

section Check
variable (poseidon2 : List Fr → Fr) (request : ParsedEventValidationRequest)

/-- The nullifier the kernel publishes for the commitment. -/
def publishedNullifier : Fr := siloNullifier poseidon2 request.contractAddress request.eventCommitment

/-- The value `validate_and_store_event` looks for. -/
def soughtNullifier : Fr :=
  poseidon2HashWithSeparator poseidon2 [request.contractAddress.inner, request.eventCommitment] 0

/-- The commitment was published at the anchor's height or below. -/
def OnChain (anchorBlockNumber : Nat) (effect : Json) : Prop :=
  Lists effect (publishedNullifier poseidon2 request) ∧
    ∃ block, effectBlock effect = some block ∧ block ≤ anchorBlockNumber

instance (anchorBlockNumber : Nat) (effect : Json) :
    Decidable (OnChain poseidon2 request anchorBlockNumber effect) :=
  decidable_of_iff (Lists effect (publishedNullifier poseidon2 request) ∧
    (effectBlock effect).any (· ≤ anchorBlockNumber)) (by simp [OnChain, Option.any_eq_true])

/-- The event is stored if it is on chain, and is refused if it is not. -/
def StoredIffOnChain (node : AztecNode) (anchorBlockNumber : Nat) (effect : Json)
    (store : PrivateEventStore) : Prop :=
  (OnChain poseidon2 request anchorBlockNumber effect ∧
    ∃ event, event.contractAddress = request.contractAddress ∧
      event.eventSelector = request.eventTypeId ∧ event.msgContent = request.serializedEvent ∧
      validateAndStoreEvent poseidon2 node anchorBlockNumber request store =
        .ok (store.storePrivateEventLog event request.recipient)) ∨
  (¬ OnChain poseidon2 request anchorBlockNumber effect ∧
    ∃ e, validateAndStoreEvent poseidon2 node anchorBlockNumber request store = .error e)

/-- The effect's block is above an anchor that is not at zero. -/
def AboveAnchor (anchorBlockNumber : Nat) (effect : Json) : Prop :=
  0 < anchorBlockNumber ∧ anchorBlockNumber < (effectBlock effect).getD 0

/-- What is sought is listed with what is on chain; what is not on chain is above the anchor,
or the effect has a list without what is sought. -/
def Telling (anchorBlockNumber : Nat) (effect : Json) : Prop :=
  (OnChain poseidon2 request anchorBlockNumber effect →
    Lists effect (soughtNullifier poseidon2 request)) ∧
  (¬ OnChain poseidon2 request anchorBlockNumber effect →
    AboveAnchor anchorBlockNumber effect ∨
      ((effectNullifiers effect).isSome ∧ ¬ Lists effect (soughtNullifier poseidon2 request)))

end Check

variable {poseidon2 : List Fr → Fr} {node : AztecNode} {anchorBlockNumber : Nat}
variable {request : ParsedEventValidationRequest} {store : PrivateEventStore} {effect : Json}

theorem nullifierPosition_isSome_iff (commitment : Fr) (nullifiers : List Json) :
    (nullifierPosition commitment nullifiers).isSome ↔
      ∃ nullifier ∈ nullifiers, nullifier.asStr = some (hex32 commitment.val) := by
  simp [nullifierPosition, List.findIdx?_isSome]

/-- The list, if there is one, is refused exactly when it lacks the value. -/
theorem refused_iff (effect : Json) (value : Fr) :
    (effectNullifiers effect).isSome ∧
        ((effectNullifiers effect).bind (nullifierPosition value)).isNone ↔
      (effectNullifiers effect).isSome ∧ ¬ Lists effect value := by
  unfold Lists
  cases listed : effectNullifiers effect with
  | none => simp
  | some nullifiers => simp [← nullifierPosition_isSome_iff]

/-- What the check refuses: an effect above the anchor, or with a list that lacks the value. -/
theorem validateAndStoreEvent_cases (poseidon2 : List Fr → Fr) (store : PrivateEventStore)
    (answered : node.getTxEffect request.txHash = .ok (some effect)) :
    let refusal := AboveAnchor anchorBlockNumber effect ∨
      ((effectNullifiers effect).isSome ∧ ¬ Lists effect (soughtNullifier poseidon2 request))
    (refusal ∧ ∃ e, validateAndStoreEvent poseidon2 node anchorBlockNumber request store = .error e) ∨
    (¬ refusal ∧ ∃ event, event.contractAddress = request.contractAddress ∧
      event.eventSelector = request.eventTypeId ∧ event.msgContent = request.serializedEvent ∧
      validateAndStoreEvent poseidon2 node anchorBlockNumber request store =
        .ok (store.storePrivateEventLog event request.recipient)) := by
  intro refusal
  unfold validateAndStoreEvent
  simp only [answered, ok_bind]
  by_cases above : AboveAnchor anchorBlockNumber effect
  · rw [if_pos ⟨above.2, above.1⟩]
    exact .inl ⟨.inl above, _, rfl⟩
  · rw [if_neg (fun both => above ⟨both.2, both.1⟩)]
    have test := refused_iff effect (soughtNullifier poseidon2 request)
    unfold effectNullifiers soughtNullifier at test
    by_cases lacking : (effectNullifiers effect).isSome ∧
        ¬ Lists effect (soughtNullifier poseidon2 request)
    · rw [if_pos (test.mpr lacking)]
      exact .inl ⟨.inr lacking, _, rfl⟩
    · rw [if_neg (fun refused => lacking (test.mp refused))]
      exact .inr ⟨fun refused => refused.elim above lacking, _, rfl, rfl, rfl, rfl⟩

theorem OnChain.not_aboveAnchor (onChain : OnChain poseidon2 request anchorBlockNumber effect) :
    ¬ AboveAnchor anchorBlockNumber effect := by
  obtain ⟨-, block, height, below⟩ := onChain
  rintro ⟨-, above⟩
  rw [height] at above
  exact absurd below (Nat.not_le.mpr above)

theorem OnChain.has_list (onChain : OnChain poseidon2 request anchorBlockNumber effect) :
    (effectNullifiers effect).isSome := by
  obtain ⟨⟨nullifiers, listed, -⟩, -⟩ := onChain
  rw [listed]
  rfl

/-- An event is stored exactly when it is on chain, where the check tells the two apart. -/
theorem stored_iff_on_chain_iff (poseidon2 : List Fr → Fr) (node : AztecNode)
    (anchorBlockNumber : Nat) (request : ParsedEventValidationRequest) (store : PrivateEventStore)
    (effect : Json) (answered : node.getTxEffect request.txHash = .ok (some effect)) :
    StoredIffOnChain poseidon2 request node anchorBlockNumber effect store ↔
      Telling poseidon2 request anchorBlockNumber effect := by
  rcases validateAndStoreEvent_cases poseidon2 store answered with
    ⟨refusal, e, refused⟩ | ⟨accepted, event, contract, selector, content, stored⟩
  · constructor
    · rintro (⟨-, event, -, -, -, stored⟩ | ⟨absent, -⟩)
      · rw [refused] at stored
        cases stored
      · exact ⟨fun onChain => absurd onChain absent, fun _ => refusal⟩
    · intro telling
      refine .inr ⟨fun onChain => ?_, e, refused⟩
      rcases refusal with above | lacking
      · exact onChain.not_aboveAnchor above
      · exact lacking.2 (telling.1 onChain)
  · constructor
    · rintro (⟨onChain, -⟩ | ⟨-, e, refused⟩)
      · refine ⟨fun _ => ?_, fun absent => absurd onChain absent⟩
        by_contra unlisted
        exact accepted (.inr ⟨onChain.has_list, unlisted⟩)
      · rw [stored] at refused
        cases refused
    · intro telling
      refine .inl ⟨?_, event, contract, selector, content, stored⟩
      by_contra absent
      exact accepted (telling.2 absent)

/-- An event of contract 1 with the commitment 2. -/
def sampleRequest : ParsedEventValidationRequest :=
  ⟨⟨1⟩, ⟨3⟩, 4, [5], 2, ⟨6⟩, ⟨7⟩⟩

/-- The effect of a transaction in block 5 with these nullifiers. -/
def sampleEffect (nullifiers : List Fr) : Json :=
  .obj [("l2BlockNumber", .posInt 5),
    ("nullifiers", .arr (nullifiers.map (fun value => .str (hex32 value.val))))]

/-- A node that answers with this effect. -/
def nodeWith (effect : Json) : AztecNode where
  getBlockNumber := .ok 10
  getProvenBlockNumber := .ok 10
  getBlockHeader _ := .ok .null
  getNullifierMembershipWitness _ _ := .ok none
  getTxEffect _ := .ok (some effect)

/-- An effect without what is sought, and without what is published, is told apart. -/
theorem other_event_is_refused :
    StoredIffOnChain Crypto.summed.poseidon2 sampleRequest (nodeWith (sampleEffect [9])) 10
      (sampleEffect [9]) {} := by
  refine (stored_iff_on_chain_iff _ _ 10 sampleRequest {} (sampleEffect [9]) rfl).mpr
    ⟨fun onChain => absurd onChain (by decide +kernel), fun _ => .inr ⟨rfl, by decide +kernel⟩⟩

/-- The nullifier the kernel publishes is not the one that is sought. -/
theorem published_event_is_refused :
    let effect := sampleEffect [publishedNullifier Crypto.summed.poseidon2 sampleRequest]
    ¬ StoredIffOnChain Crypto.summed.poseidon2 sampleRequest (nodeWith effect) 10 effect {} := by
  intro effect
  have onChain : OnChain Crypto.summed.poseidon2 sampleRequest 10 effect := by decide +kernel
  have unsought : ¬ Lists effect (soughtNullifier Crypto.summed.poseidon2 sampleRequest) := by
    decide +kernel
  have answered : (nodeWith effect).getTxEffect sampleRequest.txHash = .ok (some effect) := rfl
  rcases validateAndStoreEvent_cases Crypto.summed.poseidon2 {} answered
    with ⟨-, e, refused⟩ | ⟨accepted, -⟩
  · rintro (⟨-, event, -, -, -, stored⟩ | ⟨absent, -⟩)
    · exact absurd (refused.symm.trans stored) (by simp)
    · exact absent onChain
  · exact absurd (.inr ⟨onChain.has_list, unsought⟩) accepted

end AztecPxe.EventInclusion
