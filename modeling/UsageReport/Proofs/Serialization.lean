import Mathlib
import UsageReport.Proofs.Delivery
import UsageReport.Run.Overlap

/-!
Runs that overlap. At any time either nobody holds the lock, and the history consists of the runs
that have finished, or one run holds it, and the history goes on with what that run has done so far.
So the runs come to the same as runs one after another, in the order in which they take the lock.
-/

namespace UsageReport

namespace Runner

theorem actionsOfRuns_succ (runner : Runner) (count : Nat) :
    runner.actionsOfRuns (count + 1) = runner.actionsOfRuns count ++ runner.actions (count + 1) := by
  simp [actionsOfRuns, List.range_succ]

theorem readCount_actionsOfRuns (runner : Runner) (count : Nat) (bucket : Bucket) :
    readCount (runner.actionsOfRuns count) bucket =
      count * readCount (runner.actions 1) bucket := by
  induction count with
  | zero => rw [Nat.zero_mul]; rfl
  | succ count ih =>
      rw [actionsOfRuns_succ, readCount_eq, bucketsRead_append, List.count_append, ← readCount_eq,
        ih, bucketsRead_actions, ← bucketsRead_actions runner 1, ← readCount_eq, Nat.succ_mul]

theorem handedTo_actionsOfRuns (runner : Runner) (count place : Nat) :
    handedTo place (runner.actionsOfRuns count) =
      List.replicate
        ((List.range count).countP fun earlier => runner.Reaches (earlier + 1) place)
        runner.outcome := by
  induction count with
  | zero => rfl
  | succ count ih =>
      rw [actionsOfRuns_succ, handedTo_append, ih, handedTo_actions, List.range_succ,
        List.countP_append, List.replicate_add]
      by_cases hreaches : runner.Reaches (count + 1) place <;> simp [hreaches]

theorem handedTo_actionsOfRuns_eq_replicate_iff (runner : Runner) (count place : Nat) :
    handedTo place (runner.actionsOfRuns count) = List.replicate count runner.outcome ↔
      ∀ earlier < count, runner.Reaches (earlier + 1) place := by
  rw [handedTo_actionsOfRuns, List.replicate_inj, and_iff_left (.inr rfl)]
  have hall := List.countP_eq_length (l := List.range count)
    (p := fun earlier => decide (runner.Reaches (earlier + 1) place))
  simpa only [List.length_range, List.mem_range, decide_eq_true_eq] using hall

theorem sentTo_actionsOfRuns (runner : Runner) (count : Nat) {place : Nat}
    (hchannel : runner.destinations[place]? = some .channel) :
    sentTo place (runner.actionsOfRuns count) = handedTo place (runner.actionsOfRuns count) := by
  induction count with
  | zero => rfl
  | succ count ih =>
      rw [actionsOfRuns_succ, sentTo_append, handedTo_append, ih, sentTo_actions runner _ hchannel]

end Runner

namespace Overlap

/-- The run at some place has taken the lock and not yet given it back. -/
def IsInside (overlap : Overlap) (place : Nat) : Prop :=
  ∃ remaining, overlap.runs[place]? = some (.inside remaining)

variable {runner : Runner} {count : Nat} {overlap : Overlap}

/-- Nobody holds the lock, and `done` runs have finished. -/
structure Free (runner : Runner) (count done : Nat) (overlap : Overlap) : Prop where
  length : overlap.runs.length = count
  holder : overlap.holder = none
  outside : ∀ place, ¬overlap.IsInside place
  entered : overlap.entered = done
  finished : overlap.runs.count .finished = done
  history : overlap.history = runner.actionsOfRuns done

/-- The run at some place holds the lock after `done` runs have finished. -/
structure Taken (runner : Runner) (count done place : Nat) (performed remaining : List Action)
    (overlap : Overlap) : Prop where
  length : overlap.runs.length = count
  holder : overlap.holder = some place
  inside : overlap.runs[place]? = some (.inside remaining)
  alone : ∀ other, overlap.IsInside other → other = place
  entered : overlap.entered = done + 1
  finished : overlap.runs.count .finished = done
  history : overlap.history = runner.actionsOfRuns done ++ performed
  actions : performed ++ remaining = runner.actions (done + 1)

/-- The runs go one at a time, and some moves are left. -/
inductive Serial (runner : Runner) (count : Nat) (overlap : Overlap) : Nat → Prop where
  | free {done : Nat} (hfree : Free runner count done overlap) :
      Serial runner count overlap (movesAfter runner done (count - done))
  | taken {done place : Nat} {performed remaining : List Action}
      (htaken : Taken runner count done place performed remaining overlap) :
      Serial runner count overlap
        (movesAfter runner (done + 1) (count - (done + 1)) + remaining.length + 1)

def Enabled (overlap : Overlap) (place : Nat) : Prop :=
  (overlap.runs[place]? = some .waiting ∧ overlap.holder = none) ∨ overlap.IsInside place

theorem not_isInside_start (count place : Nat) : ¬(start count).IsInside place := by
  rintro ⟨remaining, hinside⟩
  rw [start, List.getElem?_replicate] at hinside
  split at hinside <;> cases hinside

theorem free_start (runner : Runner) (count : Nat) : Free runner count 0 (start count) where
  length := List.length_replicate
  holder := rfl
  outside := not_isInside_start count
  entered := rfl
  finished := by simp [start, List.count_replicate]
  history := rfl

theorem move_of_not_enabled {place : Nat} (henabled : ¬overlap.Enabled place) :
    move runner overlap place = overlap := by
  unfold move
  split
  · rfl
  · rfl
  · rename_i hwaiting
    split
    · rfl
    · rename_i hholder
      exact absurd (.inl ⟨hwaiting, hholder⟩) henabled
  · rename_i hinside
    exact absurd (.inr ⟨_, hinside⟩) henabled
  · rename_i hinside
    exact absurd (.inr ⟨_, hinside⟩) henabled

theorem isInside_set {runs : List Progress} {place other : Nat} {progress : Progress}
    {remaining : List Action} (hset : (runs.set place progress)[other]? = some (.inside remaining)) :
    other = place ∨ runs[other]? = some (.inside remaining) := by
  rw [List.getElem?_set] at hset
  split at hset
  · rename_i heq
    exact .inl heq.symm
  · exact .inr hset

theorem count_finished_set {place : Nat} {before after : Progress}
    (hbefore : overlap.runs[place]? = some before) (hunfinished : before ≠ .finished) :
    (overlap.runs.set place after).count .finished =
      overlap.runs.count .finished + if after = .finished then 1 else 0 := by
  obtain ⟨hlt, hget⟩ := List.getElem?_eq_some_iff.mp hbefore
  rw [List.count_set hlt, hget]
  simp [hunfinished]

theorem Free.lt_of_waiting {done place : Nat} (hfree : Free runner count done overlap)
    (hwaiting : overlap.runs[place]? = some .waiting) : done < count := by
  rw [← hfree.finished, ← hfree.length, List.count_lt_length_iff]
  exact ⟨.waiting, List.mem_of_getElem? hwaiting, by simp⟩

theorem Free.move_waiting {done place : Nat} (hfree : Free runner count done overlap)
    (hwaiting : overlap.runs[place]? = some .waiting) :
    Taken runner count done place [] (runner.actions (done + 1)) (move runner overlap place) := by
  have hmove : move runner overlap place =
      { overlap with
        runs := overlap.runs.set place (.inside (runner.actions (overlap.entered + 1)))
        holder := some place
        entered := overlap.entered + 1 } := by
    simp only [move, hwaiting, hfree.holder]
  obtain ⟨hlt, -⟩ := List.getElem?_eq_some_iff.mp hwaiting
  rw [hmove, hfree.entered]
  constructor
  · exact List.length_set.trans hfree.length
  · rfl
  · exact List.getElem?_set_self hlt
  · rintro other ⟨remaining, hother⟩
    refine (isInside_set hother).resolve_right fun hinside => ?_
    exact hfree.outside other ⟨remaining, hinside⟩
  · rfl
  · exact (count_finished_set hwaiting (by simp)).trans hfree.finished
  · exact hfree.history.trans (List.append_nil _).symm
  · rfl

theorem Taken.move_action {done place : Nat} {performed remaining : List Action} {action : Action}
    (htaken : Taken runner count done place performed (action :: remaining) overlap) :
    Taken runner count done place (performed ++ [action]) remaining
      (move runner overlap place) := by
  have hmove : move runner overlap place =
      { overlap with
        runs := overlap.runs.set place (.inside remaining)
        history := overlap.history ++ [action] } := by
    simp only [move, htaken.inside]
  obtain ⟨hlt, -⟩ := List.getElem?_eq_some_iff.mp htaken.inside
  rw [hmove]
  constructor
  · exact List.length_set.trans htaken.length
  · exact htaken.holder
  · exact List.getElem?_set_self hlt
  · rintro other ⟨others, hother⟩
    exact (isInside_set hother).elim id fun hinside => htaken.alone other ⟨others, hinside⟩
  · exact htaken.entered
  · exact (count_finished_set htaken.inside (by simp)).trans htaken.finished
  · simp [htaken.history]
  · rw [← htaken.actions, List.append_assoc, List.singleton_append]

theorem Taken.move_release {done place : Nat} {performed : List Action}
    (htaken : Taken runner count done place performed [] overlap) :
    Free runner count (done + 1) (move runner overlap place) := by
  have hmove : move runner overlap place =
      { overlap with runs := overlap.runs.set place .finished, holder := none } := by
    simp only [move, htaken.inside]
  have hactions := htaken.actions
  rw [List.append_nil] at hactions
  obtain ⟨hlt, -⟩ := List.getElem?_eq_some_iff.mp htaken.inside
  rw [hmove]
  constructor
  · exact List.length_set.trans htaken.length
  · rfl
  · rintro other ⟨remaining, hother⟩
    have hplace : other = place :=
      (isInside_set hother).elim id fun hinside => htaken.alone other ⟨remaining, hinside⟩
    subst hplace
    rw [List.getElem?_set_self hlt] at hother
    cases hother
  · exact htaken.entered
  · rw [count_finished_set htaken.inside (by simp), htaken.finished]
    rfl
  · exact htaken.history.trans (by rw [hactions, Runner.actionsOfRuns_succ])

/-- A move leaves one move less to be made. -/
theorem Serial.move {left place : Nat} (hserial : Serial runner count overlap left)
    (henabled : overlap.Enabled place) :
    ∃ less, less + 1 = left ∧ Serial runner count (move runner overlap place) less := by
  cases hserial with
  | @free done hfree =>
      rcases henabled with ⟨hwaiting, -⟩ | hinside
      · have hlt := hfree.lt_of_waiting hwaiting
        refine ⟨_, ?_, .taken (hfree.move_waiting hwaiting)⟩
        obtain ⟨rest, hrest⟩ : ∃ rest, count - done = rest + 1 :=
          ⟨count - done - 1, by omega⟩
        have hafter : count - (done + 1) = rest := by omega
        rw [hrest, hafter, movesAfter, moves]
        omega
      · exact absurd hinside (hfree.outside place)
  | @taken done holder performed remaining htaken =>
      -- Only the run that holds the lock can move.
      have hplace : place = holder := by
        rcases henabled with ⟨-, hnone⟩ | hinside
        · rw [htaken.holder] at hnone
          cases hnone
        · exact htaken.alone place hinside
      subst hplace
      cases remaining with
      | nil => exact ⟨_, rfl, .free htaken.move_release⟩
      | cons action remaining =>
          refine ⟨_, ?_, .taken htaken.move_action⟩
          rw [List.length_cons]
          omega

theorem Serial.exists_enabled {left : Nat} (hserial : Serial runner count overlap left)
    (hunfinished : overlap.isFinished = false) :
    ∃ place, place < count ∧ overlap.Enabled place := by
  cases hserial with
  | @free done hfree =>
      -- Nobody is inside, so a run that has not finished is waiting.
      simp only [isFinished, List.all_eq_false, beq_iff_eq] at hunfinished
      obtain ⟨progress, hmem, hprogress⟩ := hunfinished
      obtain ⟨place, hlt, hget⟩ := List.getElem_of_mem hmem
      have hplace : overlap.runs[place]? = some progress := List.getElem?_eq_some_iff.mpr ⟨hlt, hget⟩
      refine ⟨place, hfree.length ▸ hlt, .inl ⟨?_, hfree.holder⟩⟩
      cases progress with
      | waiting => exact hplace
      | inside remaining => exact absurd ⟨remaining, hplace⟩ (hfree.outside place)
      | finished => exact absurd rfl hprogress
  | @taken done holder performed remaining htaken =>
      obtain ⟨hlt, -⟩ := List.getElem?_eq_some_iff.mp htaken.inside
      exact ⟨holder, htaken.length ▸ hlt, .inr ⟨remaining, htaken.inside⟩⟩

theorem Serial.play {left : Nat} (hserial : Serial runner count overlap left)
    (places : List Nat) :
    ∃ less ≤ left, Serial runner count (play runner overlap places) less := by
  induction places generalizing overlap left with
  | nil => exact ⟨left, Nat.le_refl _, hserial⟩
  | cons place places ih =>
      by_cases henabled : overlap.Enabled place
      · obtain ⟨fewer, rfl, hmoved⟩ := hserial.move henabled
        obtain ⟨less, hless, hplayed⟩ := ih hmoved
        exact ⟨less, Nat.le_succ_of_le hless, hplayed⟩
      · rw [Overlap.play, List.foldl_cons, move_of_not_enabled henabled]
        exact ih hserial

theorem serial_start (runner : Runner) (count : Nat) :
    Serial runner count (start count) (movesAfter runner 0 count) :=
  .free (free_start runner count)

/-- If somebody can move, then somebody does in a round in which everyone may. -/
theorem Serial.play_lt {left place : Nat} (hserial : Serial runner count overlap left)
    (henabled : overlap.Enabled place) {places : List Nat} (hplace : place ∈ places) :
    ∃ less < left, Serial runner count (Overlap.play runner overlap places) less := by
  induction places with
  | nil => cases hplace
  | cons first places ih =>
      by_cases hfirst : overlap.Enabled first
      · obtain ⟨fewer, rfl, hmoved⟩ := hserial.move hfirst
        obtain ⟨less, hless, hplayed⟩ := hmoved.play places
        exact ⟨less, Nat.lt_succ_of_le hless, hplayed⟩
      · rw [Overlap.play, List.foldl_cons, move_of_not_enabled hfirst]
        refine ih ((List.mem_cons.mp hplace).resolve_left ?_)
        rintro rfl
        exact hfirst henabled

theorem play_append (first second : List Nat) :
    play runner overlap (first ++ second) = play runner (play runner overlap first) second :=
  List.foldl_append

theorem not_enabled_of_isFinished (hfinished : overlap.isFinished = true) (place : Nat) :
    ¬overlap.Enabled place := by
  simp only [isFinished, List.all_eq_true, beq_iff_eq] at hfinished
  rintro (⟨hwaiting, -⟩ | ⟨remaining, hinside⟩)
  · cases hfinished _ (List.mem_of_getElem? hwaiting)
  · cases hfinished _ (List.mem_of_getElem? hinside)

theorem play_of_isFinished (hfinished : overlap.isFinished = true) (places : List Nat) :
    play runner overlap places = overlap := by
  induction places with
  | nil => rfl
  | cons place places ih =>
      rw [play, List.foldl_cons, move_of_not_enabled (not_enabled_of_isFinished hfinished place)]
      exact ih

theorem isFinished_play_rounds {left : Nat} (hserial : Serial runner count overlap left)
    {rounds : Nat} (hrounds : left ≤ rounds) :
    (play runner overlap (List.replicate rounds (List.range count)).flatten).isFinished = true := by
  induction rounds generalizing overlap left with
  | zero =>
      -- No move is left, but a run that has not finished would have one.
      by_contra hunfinished
      obtain ⟨place, -, henabled⟩ :=
        hserial.exists_enabled (Bool.not_eq_true _ ▸ hunfinished)
      obtain ⟨less, hless, -⟩ := hserial.move henabled
      omega
  | succ rounds ih =>
      cases hfinished : overlap.isFinished with
      | true => rwa [play_of_isFinished hfinished]
      | false =>
          rw [List.replicate_succ, List.flatten_cons, play_append]
          obtain ⟨place, hlt, henabled⟩ := hserial.exists_enabled hfinished
          obtain ⟨less, hless, hplayed⟩ := hserial.play_lt henabled (List.mem_range.mpr hlt)
          exact ih hplayed (by omega)

theorem Serial.isInside_unique {left : Nat} (hserial : Serial runner count overlap left)
    {first second : Nat} (hfirst : overlap.IsInside first) (hsecond : overlap.IsInside second) :
    first = second := by
  cases hserial with
  | free hfree => exact absurd hfirst (hfree.outside first)
  | taken htaken => exact (htaken.alone first hfirst).trans (htaken.alone second hsecond).symm

theorem Serial.exists_history {left : Nat} (hserial : Serial runner count overlap left) :
    ∃ done performed, overlap.runs.count .finished = done ∧ done ≤ count ∧
      performed <+: runner.actions (done + 1) ∧ (done = count → performed = []) ∧
      overlap.history = runner.actionsOfRuns done ++ performed := by
  cases hserial with
  | @free done hfree =>
      refine ⟨done, [], hfree.finished, ?_, List.nil_prefix, fun _ => rfl, ?_⟩
      · rw [← hfree.finished, ← hfree.length]
        exact List.count_le_length
      · rw [hfree.history, List.append_nil]
  | @taken done place performed remaining htaken =>
      have hlt : done < count := by
        rw [← htaken.finished, ← htaken.length, List.count_lt_length_iff]
        exact ⟨_, List.mem_of_getElem? htaken.inside, by simp⟩
      refine ⟨done, performed, htaken.finished, Nat.le_of_lt hlt, ⟨remaining, htaken.actions⟩,
        fun heq => absurd heq (Nat.ne_of_lt hlt), htaken.history⟩

theorem length_runs_play (places : List Nat) :
    (play runner (start count) places).runs.length = count := by
  obtain ⟨left, -, hserial⟩ := (serial_start runner count).play places
  cases hserial with
  | free hfree => exact hfree.length
  | taken htaken => exact htaken.length

theorem count_finished_of_isFinished {places : List Nat}
    (hfinished : (play runner (start count) places).isFinished = true) :
    (play runner (start count) places).runs.count .finished = count := by
  simp only [isFinished, List.all_eq_true, beq_iff_eq] at hfinished
  rw [List.count_eq_length.mpr fun progress hmem => (hfinished progress hmem).symm,
    length_runs_play]

theorem history_of_isFinished {places : List Nat}
    (hfinished : (play runner (start count) places).isFinished = true) :
    (play runner (start count) places).history = runner.actionsOfRuns count := by
  obtain ⟨left, -, hplayed⟩ := (serial_start runner count).play places
  obtain ⟨done, performed, hdone, -, -, hnothing, hhistory⟩ := hplayed.exists_history
  obtain rfl : count = done := (count_finished_of_isFinished hfinished).symm.trans hdone
  rwa [hnothing rfl, List.append_nil] at hhistory

theorem isFinished_finish (runner : Runner) (count : Nat) :
    (finish runner count).isFinished = true :=
  isFinished_play_rounds (serial_start runner count) (Nat.le_refl _)

/-- However the runs move, never two of them are inside at once, and the history consists of
complete runs and the beginning of one more. A run hands its outcome once to every destination
before which none panicked, and to no other. The runs can always be brought to an end, also if
destinations panic, and then the history is that of runs one after another: every bucket has been
read as often as by so many runs alone, and a destination has the outcome of every run exactly if
none before it panicked in any of them. -/
theorem history_of_overlapping_runs (runner : Runner) (count : Nat) :
    (∀ places first second, (play runner (start count) places).IsInside first →
      (play runner (start count) places).IsInside second → first = second) ∧
    (∀ places, ∃ done performed,
      (play runner (start count) places).runs.count .finished = done ∧ done ≤ count ∧
      performed <+: runner.actions (done + 1) ∧ (done = count → performed = []) ∧
      (play runner (start count) places).history = runner.actionsOfRuns done ++ performed) ∧
    (∀ places, ∃ more, (play runner (start count) (places ++ more)).isFinished = true) ∧
    (finish runner count).isFinished = true ∧
    (∀ number place, handedTo place (runner.actions number) =
      if runner.Reaches number place then [runner.outcome] else []) ∧
    ∀ places, (play runner (start count) places).isFinished = true →
      (play runner (start count) places).history = runner.actionsOfRuns count ∧
      (∀ bucket, readCount (play runner (start count) places).history bucket =
        count * readCount (runner.actions 1) bucket) ∧
      (∀ place, handedTo place (play runner (start count) places).history =
        List.replicate ((List.range count).countP fun earlier => runner.Reaches (earlier + 1) place)
          runner.outcome) ∧
      (∀ place, handedTo place (play runner (start count) places).history =
          List.replicate count runner.outcome ↔
        ∀ earlier < count, runner.Reaches (earlier + 1) place) ∧
      ∀ place, runner.destinations[place]? = some .channel →
        sentTo place (play runner (start count) places).history =
          handedTo place (play runner (start count) places).history := by
  have hserial (places : List Nat) := (serial_start runner count).play places
  refine ⟨?_, ?_, ?_, isFinished_finish runner count, runner.handedTo_actions, ?_⟩
  · intro places first second hfirst hsecond
    obtain ⟨left, -, hplayed⟩ := hserial places
    exact hplayed.isInside_unique hfirst hsecond
  · intro places
    obtain ⟨left, -, hplayed⟩ := hserial places
    exact hplayed.exists_history
  · intro places
    obtain ⟨left, -, hplayed⟩ := hserial places
    refine ⟨(List.replicate left (List.range count)).flatten, ?_⟩
    rw [play_append]
    exact isFinished_play_rounds hplayed (Nat.le_refl _)
  · intro places hfinished
    rw [history_of_isFinished hfinished]
    exact ⟨rfl, runner.readCount_actionsOfRuns count, runner.handedTo_actionsOfRuns count,
      runner.handedTo_actionsOfRuns_eq_replicate_iff count,
      fun place hchannel => runner.sentTo_actionsOfRuns count hchannel⟩

/-- The second of three destinations panics on the outcome of the second run. -/
def faultyRunner : Runner where
  host := { version := "2.0.0" }
  source := { store := { identity := some ⟨"6f1c2a9e"⟩, dockerHub := some {} } }
  destinations := [.channel, .faulty [2], .channel]

theorem history_of_faultyRunner :
    (play faultyRunner (start 3) [1, 0, 1, 1, 2, 1]).IsInside 1 ∧
    (∀ place, (play faultyRunner (start 3) [1, 0, 1, 1, 2, 1]).IsInside place → 1 = place) ∧
    (finish faultyRunner 3).isFinished = true ∧
    (finish faultyRunner 3).history = faultyRunner.actionsOfRuns 3 ∧
    readCount (finish faultyRunner 3).history .schedules = 3 ∧
    handedTo 1 (finish faultyRunner 3).history = List.replicate 3 faultyRunner.outcome ∧
    (∀ earlier < 3, faultyRunner.Reaches (earlier + 1) 1) ∧
    handedTo 2 (finish faultyRunner 3).history = List.replicate 2 faultyRunner.outcome ∧
    faultyRunner.destinations[2]? = some .channel ∧
    sentTo 2 (finish faultyRunner 3).history = List.replicate 2 faultyRunner.outcome := by
  obtain ⟨hunique, -, -, hfinished, -, hhistory⟩ := history_of_overlapping_runs faultyRunner 3
  obtain ⟨hserial, hreads, hhanded, hall, hsent⟩ := hhistory _ hfinished
  have hinside : (play faultyRunner (start 3) [1, 0, 1, 1, 2, 1]).IsInside 1 := ⟨_, rfl⟩
  have hreaches : ∀ earlier < 3, faultyRunner.Reaches (earlier + 1) 1 := by decide
  exact ⟨hinside, fun place hplace => hunique _ _ _ hinside hplace, hfinished, hserial,
    (hreads .schedules).trans rfl, (hall 1).mpr hreaches, hreaches, hhanded 2, rfl,
    (hsent 2 rfl).trans (hhanded 2)⟩

/-- The outcome of the second run never comes to the destination behind the one that panics on it,
although all three runs finish. -/
theorem handedTo_behind_panic :
    (finish faultyRunner 3).isFinished = true ∧
    2 < faultyRunner.destinations.length ∧
    handedTo 2 (finish faultyRunner 3).history = List.replicate 2 faultyRunner.outcome ∧
    handedTo 2 (finish faultyRunner 3).history ≠ List.replicate 3 faultyRunner.outcome := by
  have hfinished := isFinished_finish faultyRunner 3
  have hhistory : (finish faultyRunner 3).history = faultyRunner.actionsOfRuns 3 :=
    history_of_isFinished hfinished
  rw [hhistory]
  refine ⟨hfinished, by decide, faultyRunner.handedTo_actionsOfRuns 3 2, ?_⟩
  rw [Ne, Runner.handedTo_actionsOfRuns_eq_replicate_iff]
  intro hreaches
  exact absurd (hreaches 1 (by decide)) (by decide)

end Overlap

end UsageReport
