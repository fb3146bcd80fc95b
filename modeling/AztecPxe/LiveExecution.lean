import AztecPxe.PersistNotes
import AztecPxe.SenderTaggingStore

/-! Private execution over the stores it shares. A circuit goes on by the answers
it gets, and two of its foreign calls read what other executions leave behind:
`getNotes` reads the note store, `getNextAppTagAsSender` takes an index from the
sender tagging store. A circuit is therefore the tree of what it would do for
every answer; what the node and the other stores answer is part of the tree. -/
namespace AztecPxe
open PrivateExecutionOracle

/-- A circuit by its foreign calls, to its end or to the error the ACVM stops
with. -/
inductive Circuit where
  | done (output : AcvmExecutionOutput)
  | failed (error : Error)
  | foreign (handler : Handler) (args : Args) (rest : Answer → Circuit)
  | getNotes (args : Args) (rest : Answer → Circuit)
  | getNextAppTagAsSender (args : Args) (rest : Answer → Circuit)
  | callPrivate (args : Args) (body : Circuit) (rest : Answer → Circuit)

/-- How an execution stops short. -/
inductive Halt where
  | error (error : Error)
  | panicked

/-- What the shared stores told an execution: the candidate notes of a query, or
the index taken for a tag. -/
inductive Exchange where
  | notes (args : Args) (returned : Option (Except Error Answer))
  | tag (secret : Fr) (index : Nat)

/-- The secret an index was taken for. -/
def Exchange.taken : Exchange → Option Fr
  | .notes .. => none
  | .tag secret _ => some secret

/-- An execution that came to its end or not, the tagging store it leaves, and
what it was told on the way. -/
structure Ran where
  outcome : Except Halt (AcvmExecutionOutput × PrivateExecutionOracle)
  tagging : SenderTaggingStore
  exchanges : List Exchange

namespace Ran

/-- An execution that stops here. -/
def stopped (halt : Halt) (tagging : SenderTaggingStore) (exchanges : List Exchange) : Ran :=
  ⟨.error halt, tagging, exchanges⟩

/-- An execution that was told something before. -/
def after (ran : Ran) (earlier : List Exchange) : Ran :=
  { ran with exchanges := earlier ++ ran.exchanges }

/-- Two executions that nobody can tell apart, which leave tagging stores that
nobody can. -/
structure Alike (ran again : Ran) : Prop where
  outcome : ran.outcome = again.outcome
  exchanges : ran.exchanges = again.exchanges
  tagging : ran.tagging.Alike again.tagging

theorem Alike.after {ran again : Ran} {earlier before : List Exchange} (alike : Alike ran again)
    (same : earlier = before) : Alike (ran.after earlier) (again.after before) where
  outcome := alike.outcome
  exchanges := by
    unfold Ran.after
    rw [same, alike.exchanges]
  tagging := alike.tagging

end Ran

/-- What the address store and the key store know of the sender: the directional
tagging secret for a contract, a sender and a recipient. -/
abbrev TaggingSecrets := AztecAddress → AztecAddress → AztecAddress → Except Error Fr

/-- The secret `get_next_app_tag_as_sender` takes an index for. -/
def PrivateExecutionOracle.tagSecret (oracle : PrivateExecutionOracle) (secrets : TaggingSecrets)
    (args : Args) : Except Error Fr :=
  match args.first 0, args.first 1 with
  | none, _ => .error (.invalidData "missing sender")
  | some _, none => .error (.invalidData "missing recipient")
  | some sender, some recipient => secrets oracle.contractAddress ⟨sender⟩ ⟨recipient⟩

namespace Circuit
variable (crypto : Crypto) (contracts : ContractStore) (secrets : TaggingSecrets)
variable (notes : NoteStore)

/-- The execution of a circuit, with the note store as it is and the tagging
store passed along. -/
def run : Circuit → PrivateExecutionOracle → SenderTaggingStore → Ran
  | .done output, oracle, tagging => ⟨.ok (output, oracle), tagging, []⟩
  | .failed e, _, tagging => .stopped (.error e) tagging []
  | .foreign handler args rest, oracle, tagging =>
    match oracle.handleForeignCall crypto args handler with
    | .error e => .stopped (.error e) tagging []
    | .ok (answer, next) => run (rest answer) next tagging
  | .getNotes args rest, oracle, tagging =>
    match oracle.getNotes notes args with
    | none => .stopped .panicked tagging [.notes args none]
    | some (.error e) => .stopped (.error e) tagging [.notes args (some (.error e))]
    | some (.ok answer) =>
      (run (rest answer) oracle tagging).after [.notes args (some (.ok answer))]
  | .getNextAppTagAsSender args rest, oracle, tagging =>
    match oracle.tagSecret secrets args with
    | .error e => .stopped (.error e) tagging []
    | .ok secret =>
      let next := tagging.getNextIndex secret
      (run (rest [[crypto.poseidon2 [secret, Fr.ofU64 next.1]]]) oracle next.2).after
        [.tag secret next.1]
  | .callPrivate args body rest, oracle, tagging =>
    match oracle.enter crypto contracts args with
    | .error e => .stopped (.error e) tagging []
    | .ok (.handled answer next) => run (rest answer) next tagging
    | .ok (.entered call) =>
      let inside := run body (oracle.nested call) tagging
      match inside.outcome with
      | .error halt => .stopped halt inside.tagging inside.exchanges
      | .ok (output, inner) =>
        let merged := oracle.merge crypto call output inner
        (run (rest merged.1) merged.2 inside.tagging).after inside.exchanges

variable {crypto contracts secrets notes} {oracle final : PrivateExecutionOracle}
variable {tagging : SenderTaggingStore} {output : AcvmExecutionOutput}

/-- What a circuit that comes to its end did is a script: all that is known of
scripts holds of it. -/
theorem exists_script {circuit : Circuit}
    (ended : (circuit.run crypto contracts secrets notes oracle tagging).outcome =
      .ok (output, final)) :
    ∃ script : Script, script.execute crypto contracts oracle = .ok final := by
  induction circuit generalizing oracle final tagging output with
  | done result =>
    cases ended
    exact ⟨.done, rfl⟩
  | failed e => cases ended
  | foreign handler args rest ih =>
    unfold run at ended
    cases handled : oracle.handleForeignCall crypto args handler with
    | error e =>
      rw [handled] at ended
      cases ended
    | ok reply =>
      rw [handled] at ended
      obtain ⟨script, executed⟩ := ih reply.1 ended
      refine ⟨.foreign handler args script, ?_⟩
      simp only [Script.execute, handled]
      exact executed
  | getNotes args rest ih =>
    unfold run at ended
    cases returned : oracle.getNotes notes args with
    | none =>
      rw [returned] at ended
      cases ended
    | some reply =>
      rw [returned] at ended
      cases reply with
      | error e => cases ended
      | ok answer =>
        obtain ⟨script, executed⟩ := ih answer ended
        exact ⟨.foreign (.query (.ok answer)) args script, executed⟩
  | getNextAppTagAsSender args rest ih =>
    unfold run at ended
    cases derived : oracle.tagSecret secrets args with
    | error e =>
      rw [derived] at ended
      cases ended
    | ok secret =>
      rw [derived] at ended
      obtain ⟨script, executed⟩ := ih _ ended
      exact ⟨.foreign (.query (.ok [])) args script, executed⟩
  | callPrivate args body rest below later =>
    unfold run at ended
    cases entry : oracle.enter crypto contracts args with
    | error e =>
      rw [entry] at ended
      cases ended
    | ok entered =>
      rw [entry] at ended
      cases entered with
      | handled answer next =>
        obtain ⟨script, executed⟩ := later answer ended
        refine ⟨.callPrivate args .done {} script, ?_⟩
        simp only [Script.execute, entry]
        exact executed
      | entered call =>
        cases inside : (body.run crypto contracts secrets notes (oracle.nested call)
            tagging).outcome with
        | error halt =>
          simp only [inside] at ended
          cases ended
        | ok reply =>
          simp only [inside] at ended
          obtain ⟨nested, executed⟩ := below inside
          obtain ⟨script, after⟩ := later _ ended
          refine ⟨.callPrivate args nested reply.1 script, ?_⟩
          simp only [Script.execute, entry, executed]
          exact after

/-- The indexes an execution takes are all it does to the tagging store. -/
theorem tagging_run (circuit : Circuit) (oracle : PrivateExecutionOracle)
    (tagging : SenderTaggingStore) :
    (circuit.run crypto contracts secrets notes oracle tagging).tagging = tagging.advance
      ((circuit.run crypto contracts secrets notes oracle tagging).exchanges.filterMap
        Exchange.taken) := by
  induction circuit generalizing oracle tagging with
  | done result => rfl
  | failed e => rfl
  | foreign handler args rest ih =>
    unfold run
    cases oracle.handleForeignCall crypto args handler with
    | error e => rfl
    | ok reply => exact ih reply.1 reply.2 tagging
  | getNotes args rest ih =>
    unfold run
    cases oracle.getNotes notes args with
    | none => rfl
    | some reply =>
      cases reply with
      | error e => rfl
      | ok answer => exact ih answer oracle tagging
  | getNextAppTagAsSender args rest ih =>
    unfold run
    cases oracle.tagSecret secrets args with
    | error e => rfl
    | ok secret => exact ih _ oracle (tagging.getNextIndex secret).2
  | callPrivate args body rest below later =>
    unfold run
    cases oracle.enter crypto contracts args with
    | error e => rfl
    | ok entered =>
      cases entered with
      | handled answer next => exact later answer next tagging
      | entered call =>
        have inside := below (oracle.nested call) tagging
        cases outcome : (body.run crypto contracts secrets notes (oracle.nested call)
            tagging).outcome with
        | error halt =>
          simp only [outcome]
          exact inside
        | ok reply =>
          simp only [outcome, Ran.after, List.filterMap_append, SenderTaggingStore.advance_append]
          rw [← inside]
          exact later _ _ _

/-- Stores that used the same indexes are told apart by no execution. -/
theorem run_alike (circuit : Circuit) (oracle : PrivateExecutionOracle)
    {tagging other : SenderTaggingStore} (alike : tagging.Alike other) :
    Ran.Alike (circuit.run crypto contracts secrets notes oracle tagging)
      (circuit.run crypto contracts secrets notes oracle other) := by
  induction circuit generalizing oracle tagging other with
  | done result => exact ⟨rfl, rfl, alike⟩
  | failed e => exact ⟨rfl, rfl, alike⟩
  | foreign handler args rest ih =>
    unfold run
    cases oracle.handleForeignCall crypto args handler with
    | error e => exact ⟨rfl, rfl, alike⟩
    | ok reply => exact ih reply.1 reply.2 alike
  | getNotes args rest ih =>
    unfold run
    cases oracle.getNotes notes args with
    | none => exact ⟨rfl, rfl, alike⟩
    | some reply =>
      cases reply with
      | error e => exact ⟨rfl, rfl, alike⟩
      | ok answer => exact (ih answer oracle alike).after rfl
  | getNextAppTagAsSender args rest ih =>
    unfold run
    cases oracle.tagSecret secrets args with
    | error e => exact ⟨rfl, rfl, alike⟩
    | ok secret =>
      have next := alike.nextIndex secret
      change Ran.Alike (Ran.after (run _ _ _ _ (rest [[crypto.poseidon2
        [secret, Fr.ofU64 (tagging.nextIndex secret)]]]) _ _) [.tag secret (tagging.nextIndex secret)]) _
      rw [next]
      exact (ih _ oracle (alike.getNextIndex secret)).after rfl
  | callPrivate args body rest below later =>
    unfold run
    cases oracle.enter crypto contracts args with
    | error e => exact ⟨rfl, rfl, alike⟩
    | ok entered =>
      cases entered with
      | handled answer next => exact later answer next alike
      | entered call =>
        have inside := below (oracle.nested call) alike
        dsimp only
        rw [inside.outcome]
        cases (body.run crypto contracts secrets notes (oracle.nested call) other).outcome with
        | error halt => exact ⟨rfl, inside.exchanges, inside.tagging⟩
        | ok reply => exact (later _ _ inside.tagging).after inside.exchanges

end Circuit
end AztecPxe
