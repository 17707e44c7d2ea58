import Chip8.Proofs.Machine.Lasting
import Chip8.Proofs.Machine.Run

/-!
What halts a machine.

A step halts it by a fault, which is noted, or by a jump to its own address, if the settings ask
for that.
Nothing else does, and no fault is noted on a machine that has not halted.
-/

namespace Chip8

/-- Only jumps have the operation of jumps. -/
theorem Instruction.eq_jump {instruction : Instruction} (jumps : instruction.operation = .jump) :
    ∃ target, instruction = .jump target := by
  cases instruction with
  | jump target => exact ⟨target, rfl⟩
  | _ => cases jumps

namespace Machine

/-- A word is at the counter, and jumps to where it is. -/
def JumpsInPlace (machine : Machine) (word : Word) : Prop :=
  machine.board.memory.readWord machine.registers.pc = .ok word ∧
    ∃ target : Address, word.decode = some (.jump target) ∧ machine.registers.pc = target.val

/-- The machine is about to jump to where it is. -/
def Idles (machine : Machine) : Prop :=
  machine.registers.mode = .running ∧ ∃ word, machine.JumpsInPlace word

/-- The step of a machine stops it: by a fault that is noted, or in an idle loop without one. -/
def StepStops (machine : Machine) : Prop :=
  machine.registers.mode ≠ .halted ∧ machine.step.2.registers.mode = .halted ∧
    ((∃ fault, machine.step.1 = .refused fault ∧ machine.step.2.lastError = some fault) ∨
      (machine.config.haltOnIdleLoop = true ∧ machine.Idles ∧ machine.step.2.lastError = none))

variable {config : Config} {machine left : Machine} {word : Word} {event : Event}

/-! ### Jumps in place -/

/-- Whether a machine is about to jump to where it is can be computed. -/
theorem idles_iff : machine.Idles ↔
    machine.registers.mode = .running ∧
      (machine.board.memory.readWord machine.registers.pc).toOption.bind Word.decode =
        some (.jump (Fin.ofNat 4096 machine.registers.pc.toNat)) ∧
      machine.registers.pc = (machine.registers.pc.toNat % 4096 : Nat) := by
  -- An address of a jump is one of the low 4096, so the two sides name the same target.
  constructor
  · rintro ⟨running, word, fetched, target, decoded, here⟩
    have low : target.val % 4096 = target.val := Nat.mod_eq_of_lt target.isLt
    have same : Fin.ofNat 4096 machine.registers.pc.toNat = target := by
      rw [here]
      exact Fin.ext low
    refine ⟨running, ?_, ?_⟩
    · rw [fetched, same]
      exact decoded
    · omega
  · rintro ⟨running, decoded, here⟩
    cases fetched : machine.board.memory.readWord machine.registers.pc with
    -- Where nothing can be fetched, nothing is decoded.
    | error fault =>
      rw [fetched] at decoded
      cases decoded
    | ok word =>
      rw [fetched] at decoded
      exact ⟨running, word, fetched, _, decoded, here⟩

/-- Whether a machine idles is decided by its mode, its counter and its next word. -/
instance (machine : Machine) : Decidable machine.Idles :=
  decidable_of_iff _ idles_iff.symm

/-- A jump in place changes nothing but the count of cycles. -/
theorem JumpsInPlace.execute (jumps : machine.JumpsInPlace word) :
    execute word machine.registers machine.board =
      (.ok machine.registers.countCycle, machine.board) := by
  obtain ⟨-, target, decoded, here⟩ := jumps
  -- An address of twelve bits is not truncated by the counter.
  have whole : (target.val : Int) % 65536 = machine.registers.pc := by omega
  rw [Word.execute_of_decode decoded]
  simp only [Instruction.perform, Instruction.operation, Instruction.fields, Operation.perform,
    Registers.jump, whole]
  rfl

/-- A running machine that jumps in place completes the jump. -/
theorem JumpsInPlace.step (jumps : machine.JumpsInPlace word)
    (running : machine.registers.mode = .running) :
    machine.step = (.completed (machine.entry (.executed word)
        (machine.settle word machine.registers.countCycle) none),
      machine.moved word machine.board machine.registers.countCycle) := by
  rw [step_of_running running, executeNext_of_fetched jumps.1, jumps.execute]
  rfl

/-- A jump in place is settled by halting, if the settings say so. -/
theorem JumpsInPlace.settle (jumps : machine.JumpsInPlace word) :
    machine.settle word machine.registers.countCycle =
      if machine.config.haltOnIdleLoop then machine.registers.countCycle.halt
      else machine.registers.countCycle := by
  -- A jump in place lands where it was fetched, and it is the only operation that is asked about.
  obtain ⟨-, target, decoded, -⟩ := jumps
  have jump : word.operation? = some .jump := by
    rw [Word.operation?, decoded]
    rfl
  simp only [Machine.settle, jump, Registers.countCycle, beq_self_eq_true, Bool.and_true]

/-- An executed word is kept as it is, or halts the machine by a jump in place. -/
theorem settle_cases {board : Board} {result : Registers}
    (fetched : machine.board.memory.readWord machine.registers.pc = .ok word)
    (done : execute word machine.registers machine.board = (.ok result, board)) :
    machine.settle word result = result ∨
      (machine.config.haltOnIdleLoop = true ∧ machine.JumpsInPlace word) := by
  by_cases halts : (machine.config.haltOnIdleLoop && word.operation? == some .jump &&
      result.pc == machine.registers.pc) = true
  · -- Only a jump is looked at, and it has jumped to the address that was compared.
    obtain ⟨⟨told, jump⟩, here⟩ := by simpa only [Bool.and_eq_true, beq_iff_eq] using halts
    obtain ⟨instruction, moved, decoded, performed, rfl⟩ := execute_done done
    rw [Word.operation?, decoded] at jump
    obtain ⟨target, rfl⟩ := Instruction.eq_jump (Option.some.inj jump)
    obtain rfl := Except.ok.inj (Prod.mk.inj performed).1
    refine .inr ⟨told, fetched, target, decoded, ?_⟩
    simp only [Registers.countCycle, Registers.jump, Instruction.fields] at here
    omega
  · exact .inl (if_neg halts)

/-! ### Machines that have halted -/

/-- No fault is noted on a machine that has not halted. -/
def Unfailed (machine : Machine) : Prop :=
  machine.registers.mode ≠ .halted → machine.lastError = none

/-- A machine that halted without a fault was told to halt in idle loops, and is in one. -/
def IdlyHalted (machine : Machine) : Prop :=
  machine.registers.mode = .halted → machine.lastError = none →
    machine.config.haltOnIdleLoop = true ∧ ∃ word, machine.JumpsInPlace word

/-- Settling leaves the counter where it is. -/
theorem settle_pc (machine : Machine) (word : Word) (result : Registers) :
    (machine.settle word result).pc = result.pc := by
  unfold settle
  split <;> rfl

/-- A word halts its machine by a jump in place only, which is still there behind the step. -/
theorem Sound.settle_halts {board : Board} {result : Registers} (sound : machine.Sound config)
    (running : machine.registers.mode = .running)
    (fetched : machine.board.memory.readWord machine.registers.pc = .ok word)
    (done : execute word machine.registers machine.board = (.ok result, board))
    (halted : (machine.settle word result).mode = .halted) :
    machine.config.haltOnIdleLoop = true ∧ machine.JumpsInPlace word ∧
      (machine.moved word board result).JumpsInPlace word := by
  rcases settle_cases fetched done with kept | ⟨told, jumps⟩
  · -- An instruction by itself does not halt.
    rw [kept] at halted
    rcases execute_mode sound.registers done with ⟨same, -⟩ | ⟨waiting, -⟩
    · rw [same, running] at halted
      cases halted
    · rw [waiting] at halted
      cases halted
  · rw [jumps.execute] at done
    obtain ⟨same, rfl⟩ := Prod.mk.inj done
    obtain rfl := Except.ok.inj same
    have here : (machine.moved word machine.board machine.registers.countCycle).registers.pc =
        machine.registers.pc := settle_pc machine word machine.registers.countCycle
    refine ⟨told, jumps, ?_⟩
    unfold JumpsInPlace
    rw [here]
    exact jumps

/-- A step that halts a machine is refused by a fault, or jumps in place. -/
theorem Sound.stepStops (sound : machine.Sound config) (fine : machine.Unfailed)
    (awake : machine.registers.mode ≠ .halted)
    (halted : machine.step.2.registers.mode = .halted) : machine.StepStops := by
  -- A machine that has not halted has noted no fault, so one that is noted is new.
  refine ⟨awake, halted, ?_⟩
  have noted := fine awake
  rcases stepped : machine.step with ⟨result, left⟩
  rw [stepped] at halted
  cases sound.steps stepped with
  | halted mode => exact absurd mode awake
  | fruitless => exact absurd halted awake
  | delivered => cases halted
  -- A word that was not refused halts the machine only as an idle loop.
  | executed mode fetched done =>
    obtain ⟨told, jumps, -⟩ := sound.settle_halts mode fetched done halted
    exact .inr ⟨told, ⟨mode, _, jumps⟩, noted⟩
  | failed => exact .inl ⟨_, rfl, rfl⟩

/-- A loaded machine runs, and no fault is noted on it. -/
theorem loadImage_runs {image : List Byte} (done : machine.loadImage image = (.ok (), left)) :
    left.registers.mode = .running ∧ left.lastError = none := by
  obtain ⟨memory, -, rfl⟩ := loadImage_eq_ok.mp done
  exact ⟨rfl, rfl⟩

/-- No fault is noted on a machine without halting it. -/
theorem unfailed_lasting (config : Config) : Lasting config Unfailed where
  -- A fault is noted by the step that halts the machine, and loading forgets it.
  load _ _ _ loaded _ := (loadImage_runs loaded).2
  step machine := by
    intro sound fine
    rcases stepped : machine.step with ⟨result, left⟩
    intro awake
    cases sound.steps stepped with
    | halted | fruitless => exact fine awake
    | delivered mode => exact fine (by rw [mode]; decide)
    | executed mode => exact fine (by rw [mode]; decide)
    | failed => exact absurd rfl awake
  aside _ _ _ _ _ _ fine := fine

/-- A machine is halted without a fault in idle loops only. -/
theorem idlyHalted_lasting (config : Config) : Lasting config IdlyHalted where
  -- A step that halts without a fault was a jump in place, and nothing but a write could move it.
  load machine image left loaded := by
    intro halted
    rw [(loadImage_runs loaded).1] at halted
    cases halted
  step machine := by
    intro sound idly
    rcases stepped : machine.step with ⟨result, left⟩
    intro halted faultless
    cases sound.steps stepped with
    | halted | fruitless => exact idly halted faultless
    | delivered => cases halted
    | executed mode fetched done =>
      obtain ⟨told, -, still⟩ := sound.settle_halts mode fetched done halted
      exact ⟨told, _, still⟩
    | failed => cases faultless
  aside _ _ _ _ _ _ idly := idly

/-- A reachable machine that has not halted has met no fault. -/
theorem Reachable.unfailed (reachable : machine.Reachable config) : machine.Unfailed := by
  obtain ⟨random, history⟩ := reachable
  -- Memory has no part in the notes on faults.
  exact (unfailed_lasting config).evolves (fun _ _ _ _ _ fine => fine) history
    (Sound.withRandom config random) fun _ => rfl

/-- The last step of a loop that halts a machine is the one that halts it. -/
theorem RunsTo.halts {limit : Int} {results : List StepResult}
    (runs : RunsTo limit machine results left) (awake : machine.registers.mode ≠ .halted)
    (halted : left.registers.mode = .halted) :
    ∃ count, (machine.after (Event.steps count)).registers.mode ≠ .halted ∧
      (machine.after (Event.steps count)).step.2 = left := by
  induction runs with
  | rest => exact absurd halted awake
  | @cycle machine moved last entry results _ stepped more ih =>
    by_cases stopped : moved.registers.mode = .halted
    · -- The machine has halted in this step, so the loop is over.
      cases more with
      | rest => exact ⟨0, awake, congrArg Prod.snd stepped⟩
      | cycle goes | wait goes | fault goes => exact absurd stopped goes.1
    · obtain ⟨count, before, stops⟩ := ih stopped halted
      have first : Event.step.apply machine = moved := congrArg Prod.snd stepped
      refine ⟨count + 1, ?_⟩
      rw [Event.steps, List.replicate_succ, after_cons, first]
      exact ⟨before, stops⟩
  | wait _ stepped | fault _ stepped => exact ⟨0, awake, congrArg Prod.snd stepped⟩

/-- An event that halts a machine does so by a step. -/
theorem Reachable.event_stops (reachable : machine.Reachable config)
    (awake : machine.registers.mode ≠ .halted)
    (halted : (event.apply machine).registers.mode = .halted) :
    ∃ count, (machine.after (Event.steps count)).StepStops ∧
      event.apply machine = (machine.after (Event.steps count)).step.2 := by
  -- Of what an event does only its steps can halt a machine, and the last of them did.
  have stops : ∀ count, (machine.after (Event.steps count)).registers.mode ≠ .halted →
      (machine.after (Event.steps count)).step.2 = event.apply machine →
        (machine.after (Event.steps count)).StepStops := by
    intro count before left
    have there := reachable.after (Event.steps count)
    exact there.sound.stepStops there.unfailed before (left ▸ halted)
  cases restarts : event.restarts with
  | true =>
    rcases apply_restart restarts machine with same | ⟨image, loaded⟩
    · exact absurd (same ▸ halted) awake
    · rw [(loadImage_runs loaded).1] at halted
      cases halted
  | false =>
    cases aside : event.isAside with
    | true =>
      obtain ⟨_, _, _, _, _, left⟩ := apply_aside aside machine
      rw [left] at halted
      exact absurd halted awake
    | false =>
      cases event with
      | step => exact ⟨0, stops 0 awake rfl, rfl⟩
      | run limit =>
        obtain ⟨count, before, left⟩ := (run_runsTo reachable.sound limit).1.halts awake halted
        exact ⟨count, stops count before left, left.symm⟩
      | write | writeBlock | fill => exact absurd halted awake
      | loadImage | loadSource | reset => cases restarts
      | _ => cases aside

end Machine

end Chip8
