import AztecPxe.Procedure

/-! Asking again and again until an answer decides or the time is up. The clock is part
of the state: a question takes its time, a sleep lasts at least as long as it should,
and the deadline is looked at between the two. -/
namespace AztecPxe

/-- A clock in a state: its time, what passes while it is read, and a sleep. -/
structure Clock (τ : Type) where
  time : τ → Nat
  pass : τ → τ
  sleep : Nat → τ → τ

/-- The clock does not run back, and a sleep lasts. -/
structure Clock.Runs {τ : Type} (clock : Clock τ) : Prop where
  passed : ∀ state, clock.time state ≤ clock.time (clock.pass state)
  slept : ∀ duration state, clock.time state + duration ≤ clock.time (clock.sleep duration state)

/-- An answer: it decides, or it does not and says what follows at the deadline. -/
inductive Polled (ε ρ : Type) where
  | decided (r : ρ)
  | undecided (atDeadline : Except ε ρ)

namespace Polling
variable {ε τ ρ α : Type} (clock : Clock τ)

/-- The time. -/
def now : Procedure ε τ Nat := Procedure.lift fun state => (.ok (clock.time state), clock.pass state)

/-- A sleep. -/
def sleepFor (duration : Nat) : Procedure ε τ Unit :=
  Procedure.lift fun state => (.ok (), clock.sleep duration state)

variable (ask : Procedure ε τ (Polled ε ρ)) (late : Nat → Bool) (interval : Nat)

/-- What follows an answer that does not decide. -/
def settle (atDeadline : Except ε ρ) : Procedure ε τ (Turn Unit ρ) := do
  let time ← now clock
  if late time then
    match atDeadline with
    | .ok r => pure (.done r)
    | .error e => throw e
  else do
    sleepFor clock interval
    pure (.again ())

/-- One question and what follows its answer. -/
def turn (_ : Unit) : Procedure ε τ (Turn Unit ρ) := do
  match ← ask with
  | .decided r => pure (.done r)
  | .undecided atDeadline => settle clock late interval atDeadline

/-- Questions for at most so many turns. -/
def poll (turns : Nat) : Procedure ε τ ρ := Procedure.loop (turn clock ask late interval) turns ()

/-- A question was not decided in time, and has been slept over. -/
def Waited (p q : τ) : Prop :=
  ∃ atDeadline asked, ask.runFrom p = some (.ok (.undecided atDeadline), asked) ∧
    late (clock.time asked) = false ∧ q = clock.sleep interval (clock.pass asked)

/-- How the last question ended the polling. -/
inductive Concluded (q : τ) : Except ε ρ → τ → Prop where
  | failed {e : ε} {last : τ} (asked : ask.runFrom q = some (.error e, last)) :
      Concluded q (.error e) last
  | decided {r : ρ} {last : τ} (asked : ask.runFrom q = some (.ok (.decided r), last)) :
      Concluded q (.ok r) last
  | expired {atDeadline : Except ε ρ} {mid : τ}
      (asked : ask.runFrom q = some (.ok (.undecided atDeadline), mid))
      (isLate : late (clock.time mid) = true) : Concluded q atDeadline (clock.pass mid)

variable {clock ask late interval}

@[simp] theorem runFrom_now_bind (f : Nat → Procedure ε τ α) (state : τ) :
    (now clock >>= f).runFrom state = (f (clock.time state)).runFrom (clock.pass state) := rfl

theorem settle_outcome {atDeadline : Except ε ρ} {state last : τ}
    {result : Except ε (Turn Unit ρ)}
    (ended : (settle clock late interval atDeadline).runFrom state = some (result, last)) :
    if late (clock.time state) then
      result = atDeadline.map Turn.done ∧ last = clock.pass state
    else result = .ok (.again ()) ∧ last = clock.sleep interval (clock.pass state) := by
  unfold settle at ended
  rcases Procedure.runFrom_bind_some ended with ⟨e, failed, -⟩ | ⟨time, next, read, going⟩
  · cases failed
  · cases read
    cases isLate : late (clock.time state) with
    | true =>
      rw [isLate] at going
      cases atDeadline <;> (cases going; exact ⟨rfl, rfl⟩)
    | false =>
      rw [isLate] at going
      cases going
      exact ⟨rfl, rfl⟩

theorem waited_of_again {p q : Unit × τ}
    (again : Procedure.Again (turn clock ask late interval) p q) :
    Waited clock ask late interval p.2 q.2 := by
  rcases Procedure.runFrom_bind_some again with ⟨e, -, failed⟩ | ⟨answer, asked, ran, going⟩
  · cases failed
  cases answer with
  | decided r => cases going
  | undecided atDeadline =>
    have settled := settle_outcome going
    split at settled
    · cases atDeadline <;> cases settled.1
    · exact ⟨atDeadline, asked, ran, Bool.eq_false_iff.mpr ‹_›, settled.2⟩

/-- However the polling ends: questions slept over, and one that ended it. -/
theorem poll_outcome {turns : Nat} {state last : τ} {result : Except ε ρ}
    (ended : (poll clock ask late interval turns).runFrom state = some (result, last)) :
    ∃ q, Relation.ReflTransGen (Waited clock ask late interval) state q ∧
      Concluded clock ask late q result last := by
  obtain ⟨⟨_, q⟩, path, final⟩ := Procedure.loop_outcome ended
  refine ⟨q, path.lift Prod.snd fun _ _ => waited_of_again, ?_⟩
  have concluded {outcome : Except ε (Turn Unit ρ)}
      (turned : (turn clock ask late interval ()).runFrom q = some (outcome, last))
      (final : outcome = result.map Turn.done) : Concluded clock ask late q result last := by
    rcases Procedure.runFrom_bind_some turned with ⟨e, failed, rfl⟩ | ⟨answer, asked, ran, going⟩
    · cases result <;> cases final
      exact .failed failed
    cases answer with
    | decided r =>
      cases going
      cases result <;> cases final
      exact .decided ran
    | undecided atDeadline =>
      have settled := settle_outcome going
      split at settled
      · obtain ⟨rfl, rfl⟩ := settled
        cases atDeadline <;> cases result <;> cases final <;> exact .expired ran ‹_›
      · rw [settled.1] at final
        cases result <;> cases final
  rcases final with ⟨e, turned, rfl⟩ | ⟨r, turned, rfl⟩
  · exact concluded turned rfl
  · exact concluded turned rfl

/-! ## Coming to an end -/

/-- The clock is not set back. -/
def Forward (clock : Clock τ) (state : τ) (_ : Except ε Unit) (last : τ) : Prop :=
  clock.time state ≤ clock.time last

theorem allows_forward : Procedure.Allows (Forward clock : τ → Except ε Unit → τ → Prop) where
  stay := fun _ => Nat.le_refl _
  fail := fun _ _ => Nat.le_refl _
  both := fun first second => Nat.le_trans first second

/-- A question that comes to an answer, and does not set the clock back. -/
structure Answered (clock : Clock τ) (x : Procedure ε τ α) : Prop where
  ends : Procedure.Ends x
  onward : Procedure.Keeps (Forward clock) x

variable {β : Type}

theorem answered_pure (a : α) : Answered clock (pure a : Procedure ε τ α) :=
  ⟨Procedure.ends_pure a, Procedure.keeps_pure allows_forward a⟩

theorem answered_throw (e : ε) : Answered clock (throw e : Procedure ε τ α) :=
  ⟨Procedure.ends_throw e, Procedure.keeps_throw allows_forward e⟩

theorem answered_bind {x : Procedure ε τ α} {f : α → Procedure ε τ β} (first : Answered clock x)
    (later : ∀ a, Answered clock (f a)) : Answered clock (x >>= f) :=
  ⟨Procedure.ends_bind first.ends fun a => (later a).ends,
    Procedure.keeps_bind allows_forward first.onward fun a => (later a).onward⟩

theorem answered_attempt {x : Procedure ε τ α} (answered : Answered clock x) :
    Answered clock (Procedure.attempt x) :=
  ⟨Procedure.ends_attempt answered.ends, Procedure.keeps_attempt answered.onward fun step => step⟩

theorem answered_now (runs : clock.Runs) : Answered clock (now clock : Procedure ε τ Nat) :=
  ⟨Procedure.ends_lift _, Procedure.keeps_lift runs.passed⟩

theorem answered_sleepFor (runs : clock.Runs) (duration : Nat) :
    Answered clock (sleepFor clock duration : Procedure ε τ Unit) :=
  ⟨Procedure.ends_lift _, Procedure.keeps_lift fun state =>
    Nat.le_trans (Nat.le_add_right _ _) (runs.slept duration state)⟩

theorem waited_time (runs : clock.Runs) (onward : Procedure.Keeps (Forward clock) ask) {p q : τ}
    (waited : Waited clock ask late interval p q) : clock.time p + interval ≤ clock.time q := by
  obtain ⟨atDeadline, asked, ran, -, rfl⟩ := waited
  have first : clock.time p ≤ clock.time asked := onward ran
  have second := runs.passed asked
  have third := runs.slept interval (clock.pass asked)
  omega

/-- The intervals that are left before a deadline. -/
def intervalsLeft (clock : Clock τ) (interval deadline : Nat) (state : τ) : Nat :=
  (deadline - clock.time state + interval - 1) / interval

theorem intervalsLeft_down {deadline : Nat} {p q : τ} (positive : 0 < interval)
    (before : clock.time p < deadline) (later : clock.time p + interval ≤ clock.time q) :
    intervalsLeft clock interval deadline q < intervalsLeft clock interval deadline p := by
  unfold intervalsLeft
  rcases Nat.lt_or_ge (deadline - clock.time p) interval with last | more
  · have none : deadline - clock.time q = 0 := by omega
    have some : 1 ≤ (deadline - clock.time p + interval - 1) / interval :=
      (Nat.one_le_div_iff positive).mpr (by omega)
    rw [none, Nat.zero_add, Nat.div_eq_of_lt (by omega)]
    exact some
  · have step : deadline - clock.time q + interval - 1 + interval ≤
        deadline - clock.time p + interval - 1 := by omega
    calc (deadline - clock.time q + interval - 1) / interval
        < (deadline - clock.time q + interval - 1) / interval + 1 := Nat.lt_succ_self _
      _ = (deadline - clock.time q + interval - 1 + interval) / interval :=
          (Nat.add_div_right _ positive).symm
      _ ≤ (deadline - clock.time p + interval - 1) / interval := Nat.div_le_div_right step

theorem answered_turn (runs : clock.Runs) (answered : Answered clock ask) (s : Unit) :
    Answered clock (turn clock ask late interval s) := by
  refine answered_bind answered fun answer => ?_
  cases answer with
  | decided r => exact answered_pure _
  | undecided atDeadline =>
    refine answered_bind (answered_now runs) fun time => ?_
    split
    · cases atDeadline with
      | ok r => exact answered_pure _
      | error e => exact answered_throw e
    · exact answered_bind (answered_sleepFor runs interval) fun _ => answered_pure _

theorem onward_poll (runs : clock.Runs) (answered : Answered clock ask) (turns : Nat) :
    Procedure.Keeps (Forward clock) (poll clock ask late interval turns) :=
  Procedure.keeps_loop allows_forward (fun s => (answered_turn runs answered s).onward) turns ()

/-- A polling that is late from a deadline on ends within the intervals there are. -/
theorem poll_ends {deadline turns : Nat} {state : τ} (runs : clock.Runs)
    (answered : Answered clock ask)
    (inTime : ∀ time, late time = false → time < deadline) (positive : 0 < interval)
    (enough : deadline ≤ clock.time state + interval * turns) :
    ∃ result last, (poll clock ask late interval (turns + 1)).runFrom state =
      some (result, last) := by
  refine Procedure.loop_ends (fun s => (answered_turn runs answered s).ends)
    (fun p => intervalsLeft clock interval deadline p.2) ?_ ?_
  · intro p q again
    have waited := waited_of_again again
    have later := waited_time runs answered.onward waited
    obtain ⟨atDeadline, asked, ran, early, -⟩ := waited
    have first : clock.time p.2 ≤ clock.time asked := answered.onward ran
    exact intervalsLeft_down positive (Nat.lt_of_le_of_lt first (inTime _ early)) later
  · refine Nat.div_lt_of_lt_mul ?_
    change deadline - clock.time state + interval - 1 < interval * (turns + 1)
    rw [Nat.mul_succ]
    omega

/-- A wait from now on, with the turns there are intervals in it. -/
theorem answered_wait {ask : Nat → Procedure ε τ (Polled ε ρ)} {late : Nat → Nat → Bool}
    {duration turns : Nat} (runs : clock.Runs) (answered : ∀ start, Answered clock (ask start))
    (inTime : ∀ start time, late start time = false → time < start + duration)
    (positive : 0 < interval) (enough : duration ≤ interval * turns) :
    Answered clock (now clock >>= fun start =>
      poll clock (ask start) (late start) interval (turns + 1)) where
  ends := by
    intro state
    rw [runFrom_now_bind]
    exact poll_ends runs (answered _) (inTime _) positive
      (Nat.add_le_add (runs.passed state) enough)
  onward := Procedure.keeps_bind allows_forward (answered_now runs).onward fun start =>
    onward_poll runs (answered start) _

/-! ## What the last answer says -/

section Verdicts
variable {x : Procedure ε τ α} {judge : Except ε α → Procedure ε τ (Polled ε ρ)}
variable {leavesOpen : Nat → Except ε α → Prop} {ends : Nat → Except ε α → Except ε ρ → Prop}
variable {atDeadline : Except ε α → Except ε ρ}

/-- What an answer leads to: an end, or a question that is left open. -/
inductive Judged (leftOpen : Prop) (ends : Except ε ρ → Prop) (atDeadline : Except ε ρ) :
    Except ε (Polled ε ρ) → Prop where
  | failed {e : ε} (ended : ends (.error e)) : Judged leftOpen ends atDeadline (.error e)
  | decided {r : ρ} (ended : ends (.ok r)) : Judged leftOpen ends atDeadline (.ok (.decided r))
  | undecided (still : leftOpen) : Judged leftOpen ends atDeadline (.ok (.undecided atDeadline))

/-- A question was answered and left open, and an interval has passed. -/
def StillOpen (clock : Clock τ) (x : Procedure ε τ α) (leavesOpen : Nat → Except ε α → Prop)
    (interval : Nat) (p q : τ) : Prop :=
  ∃ answer asked, x.runFrom p = some (answer, asked) ∧ leavesOpen (clock.time asked) answer ∧
    clock.time p + interval ≤ clock.time q

/-- How the polling came to a result: by an answer that ends it, or at the deadline. -/
def Verdict (clock : Clock τ) (x : Procedure ε τ α) (leavesOpen : Nat → Except ε α → Prop)
    (ends : Nat → Except ε α → Except ε ρ → Prop) (atDeadline : Except ε α → Except ε ρ)
    (late : Nat → Bool) (interval : Nat) (state : τ) (result : Except ε ρ) : Prop :=
  ∃ q answer asked, Relation.ReflTransGen (StillOpen clock x leavesOpen interval) state q ∧
    x.runFrom q = some (answer, asked) ∧
    (ends (clock.time asked) answer result ∨ leavesOpen (clock.time asked) answer ∧
      result = atDeadline answer ∧ ∃ later, clock.time asked ≤ later ∧ late later = true)

/-- A polling that judges answers ends within the intervals there are, after answers that
all left it open, by the last one or at the deadline. -/
theorem poll_verdict {deadline turns : Nat} {state : τ} (runs : clock.Runs)
    (answered : Answered clock x) (judging : ∀ answer, Answered clock (judge answer))
    (judged : ∀ {answer asked result last}, (judge answer).runFrom asked = some (result, last) →
      Judged (leavesOpen (clock.time asked) answer) (ends (clock.time asked) answer)
        (atDeadline answer) result)
    (inTime : ∀ time, late time = false → time < deadline) (positive : 0 < interval)
    (enough : deadline ≤ clock.time state + interval * turns) :
    ∃ result last, (poll clock (Procedure.attempt x >>= judge) late interval
        (turns + 1)).runFrom state = some (result, last) ∧
      Verdict clock x leavesOpen ends atDeadline late interval state result := by
  have asks := answered_bind (answered_attempt answered) judging
  have answers {p last : τ} {result : Except ε (Polled ε ρ)}
      (ended : (Procedure.attempt x >>= judge).runFrom p = some (result, last)) :
      ∃ answer asked, x.runFrom p = some (answer, asked) ∧ clock.time asked ≤ clock.time last ∧
        Judged (leavesOpen (clock.time asked) answer) (ends (clock.time asked) answer)
          (atDeadline answer) result := by
    obtain ⟨answer, asked, ran, going⟩ := Procedure.runFrom_bind_attempt ended
    exact ⟨answer, asked, ran, (judging answer).onward going, judged going⟩
  have still {p p' : τ}
      (waited : Waited clock (Procedure.attempt x >>= judge) late interval p p') :
      StillOpen clock x leavesOpen interval p p' := by
    have later := waited_time runs asks.onward waited
    obtain ⟨_, _, ran, -, -⟩ := waited
    obtain ⟨answer, asked, got, -, judged⟩ := answers ran
    cases judged with
    | undecided still => exact ⟨answer, asked, got, still, later⟩
  obtain ⟨result, last, ended⟩ := poll_ends runs asks inTime positive enough
  obtain ⟨q, path, concluded⟩ := poll_outcome ended
  refine ⟨result, last, ended, q, ?_⟩
  have path := path.lift id fun _ _ => still
  cases concluded with
  | failed ran =>
    obtain ⟨answer, asked, got, -, judged⟩ := answers ran
    cases judged with
    | failed ended => exact ⟨answer, asked, path, got, .inl ended⟩
  | decided ran =>
    obtain ⟨answer, asked, got, -, judged⟩ := answers ran
    cases judged with
    | decided ended => exact ⟨answer, asked, path, got, .inl ended⟩
  | expired ran isLate =>
    obtain ⟨answer, asked, got, after, judged⟩ := answers ran
    cases judged with
    | undecided still =>
      exact ⟨answer, asked, path, got, .inr ⟨still, rfl, _, after, isLate⟩⟩

end Verdicts

/-! ## What a polling leaves in a log -/

section Logged
variable {ω : Type} {log : τ → List ω}

/-- Reading the clock and sleeping leave nothing in the log. -/
structure Quiet (clock : Clock τ) (log : τ → List ω) : Prop where
  pass : ∀ state, log (clock.pass state) = log state
  sleep : ∀ duration state, log (clock.sleep duration state) = log state

theorem adds_now_bind {R : List ω → Except ε α → Prop} {f : Nat → Procedure ε τ α}
    (quiet : Quiet clock log) (later : ∀ time, Procedure.Adds log R (f time)) :
    Procedure.Adds log R (now clock >>= f) := by
  intro state result last ended
  rw [runFrom_now_bind] at ended
  obtain ⟨events, added, said⟩ := later _ ended
  exact ⟨events, by rw [added, quiet.pass], said⟩

theorem silent_now (quiet : Quiet clock log) :
    Procedure.Silent log (now clock : Procedure ε τ Nat) := by
  intro state result last ended
  cases ended
  exact ⟨[], by rw [quiet.pass, List.append_nil], rfl⟩

theorem silent_sleepFor (quiet : Quiet clock log) (duration : Nat) :
    Procedure.Silent log (sleepFor clock duration : Procedure ε τ Unit) := by
  intro state result last ended
  cases ended
  exact ⟨[], by rw [quiet.sleep, List.append_nil], rfl⟩

/-- What a turn says: the events of its question, by how the answer was settled. -/
inductive Turned (P : List ω → Except ε (Polled ε ρ) → Prop) (events : List ω) :
    Except ε (Turn Unit ρ) → Prop where
  | failed {e : ε} (said : P events (.error e)) : Turned P events (.error e)
  | decided {r : ρ} (said : P events (.ok (.decided r))) : Turned P events (.ok (.done r))
  | waits {atDeadline : Except ε ρ} (said : P events (.ok (.undecided atDeadline))) :
      Turned P events (.ok (.again ()))
  | expired {atDeadline : Except ε ρ} (said : P events (.ok (.undecided atDeadline))) :
      Turned P events (atDeadline.map Turn.done)

theorem adds_turn {P : List ω → Except ε (Polled ε ρ) → Prop} (quiet : Quiet clock log)
    (asks : Procedure.Adds log P ask) (s : Unit) :
    Procedure.Adds log (Turned P) (turn clock ask late interval s) := by
  intro state result last ended
  rcases Procedure.runFrom_bind_some ended with ⟨e, failed, rfl⟩ | ⟨answer, asked, ran, going⟩
  · obtain ⟨events, added, said⟩ := asks failed
    exact ⟨events, added, .failed said⟩
  obtain ⟨events, added, said⟩ := asks ran
  cases answer with
  | decided r =>
    cases going
    exact ⟨events, added, .decided said⟩
  | undecided atDeadline =>
    have settled := settle_outcome going
    split at settled
    · obtain ⟨rfl, rfl⟩ := settled
      exact ⟨events, by rw [quiet.pass, added], .expired said⟩
    · obtain ⟨rfl, rfl⟩ := settled
      exact ⟨events, by rw [quiet.sleep, quiet.pass, added], .waits said⟩

/-- A polling's events are those of its questions, all but the last left open. -/
theorem adds_poll {P : List ω → Except ε (Polled ε ρ) → Prop} {I : List ω → Prop}
    {R : List ω → Except ε ρ → Prop} (quiet : Quiet clock log) (asks : Procedure.Adds log P ask)
    (again : ∀ {before events atDeadline}, I before → P events (.ok (.undecided atDeadline)) →
      I (before ++ events))
    (decided : ∀ {before events r}, I before → P events (.ok (.decided r)) →
      R (before ++ events) (.ok r))
    (expired : ∀ {before events atDeadline}, I before → P events (.ok (.undecided atDeadline)) →
      R (before ++ events) atDeadline)
    (failed : ∀ {before events e}, I before → P events (.error e) →
      R (before ++ events) (.error e))
    (nothing : I []) (turns : Nat) : Procedure.Adds log R (poll clock ask late interval turns) := by
  have concluded {before events : List ω} {outcome : Except ε (Turn Unit ρ)} {result : Except ε ρ}
      (held : I before) (turned : Turned P events outcome)
      (final : outcome = result.map Turn.done) : R (before ++ events) result := by
    cases turned with
    | failed said => cases result <;> cases final; exact failed held said
    | decided said => cases result <;> cases final; exact decided held said
    | waits said => cases result <;> cases final
    | @expired atDeadline said =>
      cases atDeadline <;> cases result <;> cases final <;> exact expired held said
  refine Procedure.adds_loop (I := fun _ => I) (adds_turn quiet asks) ?_ ?_ ?_ nothing
  · intro s s' before events held turned
    generalize outcome : Except.ok (Turn.again s') = result at turned
    cases turned with
    | failed said => cases outcome
    | decided said => cases outcome
    | waits said => exact again held said
    | @expired atDeadline said => cases atDeadline <;> cases outcome
  · exact fun held turned => concluded held turned rfl
  · exact fun held turned => concluded held turned rfl

end Logged

end Polling
end AztecPxe
