import Chip8.Proofs.Assembly.Passes
import Chip8.Proofs.Machine.History
import Chip8.Proofs.Memory

/-!
Assembled programs in the memory of a machine.

A program that assembles always fits, and every command's bytes stand at its address.
-/

namespace Chip8

namespace Memory

/-- An image that was loaded fits in memory, with zeros around it. -/
theorem load_done {memory filled : Memory} {image : List Byte} {base : Int}
    (done : memory.load image base = (.ok (), filled)) :
    (programStart ≤ base ∧ base < memorySize ∧ base + image.length ≤ memorySize) ∧
      filled = fresh.putAll base.toNat image := by
  -- The base passed the check of a write, and the length passed the limit behind it.
  have answered := done
  unfold load at answered
  split at answered
  · cases answered
  · rename_i checked
    obtain ⟨low, high⟩ : programStart ≤ base ∧ base < memorySize := checkWrite_eq_ok.mp checked
    dsimp only at answered
    split at answered
    · cases answered
    · have fits : base + image.length ≤ memorySize := by omega
      refine ⟨⟨low, high, fits⟩, ?_⟩
      rw [load_eq memory low high fits] at done
      exact (Prod.mk.inj done).2.symm

end Memory

namespace Machine

/-- An image that ends within memory is loaded at the entry point. -/
theorem loadImage_eq (machine : Machine) {image : List Byte}
    (low : programStart ≤ machine.config.entryPoint) (high : machine.config.entryPoint < memorySize)
    (fits : machine.config.entryPoint + image.length ≤ memorySize) :
    machine.loadImage image = (.ok (), machine.loaded image
      (Memory.fresh.putAll machine.config.entryPoint.toNat image)) :=
  loadImage_eq_ok.mpr ⟨_, machine.board.memory.load_eq low high fits, rfl⟩

/-- An image is loaded only if it fits, and the machine is restarted around it. -/
theorem loadImage_done {machine left : Machine} {image : List Byte}
    (done : machine.loadImage image = (.ok (), left)) :
    (programStart ≤ machine.config.entryPoint ∧ machine.config.entryPoint < memorySize ∧
      machine.config.entryPoint + image.length ≤ memorySize) ∧
    left = machine.loaded image
      (Memory.fresh.putAll machine.config.entryPoint.toNat image) := by
  -- Memory was filled, and the machine restarted around it.
  obtain ⟨memory, filled, rfl⟩ := loadImage_eq_ok.mp done
  obtain ⟨fits, rfl⟩ := Memory.load_done filled
  exact ⟨fits, rfl⟩

/-- A source text is refused by the assembler, or its image is loaded at the entry point. -/
theorem loadSource_cases (machine : Machine) (low : programStart ≤ machine.config.entryPoint)
    (high : machine.config.entryPoint < memorySize) (source : List Char) :
    (∃ error, machine.loadSource source = (.error (.assembly error), machine)) ∨
      ∃ image loaded, assemble source machine.config.entryPoint = .ok image ∧
        machine.config.entryPoint + image.length ≤ memorySize ∧
        machine.loadSource source = (.ok (), loaded) ∧
        loaded.board.memory = Memory.fresh.putAll machine.config.entryPoint.toNat image := by
  cases assembled : assemble source machine.config.entryPoint with
  | error refusal => exact .inl ⟨refusal, by simp only [loadSource, assembled]⟩
  | ok image =>
    -- The image of an assembled text ends within memory.
    obtain ⟨layout, -, agrees⟩ := assemble_agrees assembled
    have fits := agrees.fits_origin (Int.le_of_lt high)
    have done := machine.loadImage_eq low high fits
    exact .inr ⟨image, _, rfl, fits, loadSource_eq_ok.mpr ⟨image, assembled, done⟩, rfl⟩

end Machine

/--
The two passes of the assembler agree, for every source text.

Whatever the origin is, an image agrees with its layout.
A machine whose entry point is a writable address refuses a source text only because the assembler
does, and has every command's bytes at its address otherwise.
-/
theorem assembler_passes_agree (source : List Char) :
    (∀ origin image, assemble source origin = .ok image →
      ∃ layout, Layout.ofStatements (Statement.parse source) origin = .ok layout ∧
        layout.Agrees (Statement.parse source) origin image) ∧
    ∀ machine : Machine, 0x200 ≤ machine.config.entryPoint → machine.config.entryPoint < 0x1000 →
      (∀ error left, machine.loadSource source = (.error error, left) →
        left = machine ∧ ∃ cause, error = .assembly cause) ∧
      ∀ loaded, machine.loadSource source = (.ok (), loaded) →
        ∃ layout, Layout.ofStatements (Statement.parse source) machine.config.entryPoint =
            .ok layout ∧
          ∀ entry ∈ layout.placed, ∃ bytes, entry.command.encode layout.labels = .ok bytes ∧
            loaded.board.memory.slice entry.address.toNat
              (entry.address.toNat + bytes.length) = bytes := by
  refine ⟨fun origin image done => assemble_agrees done, fun machine low high => ?_⟩
  rcases machine.loadSource_cases low high source with
    ⟨cause, refused⟩ | ⟨image, loaded, assembled, fits, done, filled⟩
  · rw [refused]
    refine ⟨fun error left same => ?_, fun loaded same => nomatch same⟩
    obtain ⟨reason, rfl⟩ := Prod.mk.inj same
    exact ⟨rfl, cause, (Except.error.inj reason).symm⟩
  · rw [done]
    refine ⟨fun error left same => (nomatch same), fun other same => ?_⟩
    obtain rfl := (Prod.mk.inj same).2
    obtain ⟨layout, laid, agrees⟩ := assemble_agrees assembled
    refine ⟨layout, laid, fun entry listed => ?_⟩
    obtain ⟨index, found⟩ := List.mem_iff_getElem?.mp listed
    obtain ⟨front, bytes, behind, rfl, address, encoded, -⟩ := agrees.bytes index entry found
    refine ⟨bytes, encoded, ?_⟩
    -- The command's address is the entry point and the length of what stands before it.
    have start : entry.address.toNat = machine.config.entryPoint.toNat + front.length := by omega
    have writable : programStart ≤ machine.config.entryPoint.toNat := by
      simp only [programStart]
      omega
    rw [filled, start, Memory.slice_putAll writable (by omega) (by simp), List.append_assoc,
      List.drop_left, List.take_left]

/-- A jump over a byte of data to a label behind it. -/
def forwardJump : List Char :=
  "start: JP finish\nDB 0x01\nfinish: CLS".toList

/-- The forward jump has one gap in it, and is found in a standard machine as it was assembled. -/
theorem assembler_passes_agree_forward :
    (∃ layout, Layout.ofStatements (Statement.parse forwardJump) 512 = .ok layout ∧
      layout.Agrees (Statement.parse forwardJump) 512 [0x12, 0x04, 0x01, 0x00, 0x00, 0xE0]) ∧
    ∃ loaded layout, Machine.standard.loadSource forwardJump =
        (.ok (), loaded) ∧
      Layout.ofStatements (Statement.parse forwardJump) 512 = .ok layout ∧
        ∀ entry ∈ layout.placed, ∃ bytes, entry.command.encode layout.labels = .ok bytes ∧
          loaded.board.memory.slice entry.address.toNat
            (entry.address.toNat + bytes.length) = bytes := by
  -- Assembling and loading are computed, and the layout is the one that agrees.
  have image : assemble forwardJump 512 = .ok [0x12, 0x04, 0x01, 0x00, 0x00, 0xE0] := by rfl
  have answers : (Machine.standard.loadSource forwardJump).1.isOk = true := by
    decide +kernel
  refine ⟨(assembler_passes_agree forwardJump).1 512 _ image, ?_⟩
  rcases outcome : Machine.standard.loadSource forwardJump with
    ⟨refusal | ⟨⟩, loaded⟩
  · rw [outcome] at answers
    cases answers
  · obtain ⟨layout, laid, held⟩ := ((assembler_passes_agree forwardJump).2
      .standard (by decide) (by decide)).2 loaded outcome
    exact ⟨loaded, layout, rfl, laid, held⟩

end Chip8
