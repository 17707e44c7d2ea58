import Chip8.Proofs.Machine.TraceWindow

/-!
The records of a fault: the mode, the note of the last fault, and the trace.

They agree on every machine that its host did not put together by hand.
-/

namespace Chip8

/-- The records of a fault agree, in a chronicle and in the trace that shows its last entries. -/
structure Chronicle.Noted (limit : Nat) (chronicle : Chronicle) : Prop where
  /-- A fault is noted on halted machines only. -/
  halted : chronicle.machine.lastError ≠ none → chronicle.machine.registers.mode = .halted
  /-- Since the last load only the newest recorded entry can be of a fault. -/
  single : ∀ recording ∈ chronicle.recordings.dropLast, recording.entry.error? = none
  /-- It is of a fault exactly if one is noted, and of that one. -/
  newest : (chronicle.recordings.getLast?.bind fun recording => recording.entry.error?) =
    chronicle.machine.lastError.map Fault.message
  /-- In the trace only the newest entry can be of a fault. -/
  shown : ∀ entry ∈ chronicle.machine.trace.dropLast, entry.error? = none
  /-- A trace with room for an entry shows the fault that is noted. -/
  showing : 1 ≤ limit → chronicle.machine.trace.getLast?.bind TraceEntry.error? =
    chronicle.machine.lastError.map Fault.message

/-- A machine on which a load or a reset has been done, and not refused. -/
def Machine.Reloads (machine left : Machine) : Prop :=
  (∃ image, machine.loadImage image = (.ok (), left)) ∨
    (∃ source, machine.loadSource source = (.ok (), left)) ∨ machine.reset = (.ok (), left)

/-- Every load and reset clears the note of the last fault, and the trace. -/
theorem Machine.Reloads.cleared {machine left : Machine} (reloads : machine.Reloads left) :
    left.lastError = none ∧ left.trace = [] := by
  -- All of them load some image.
  obtain ⟨image, loaded⟩ : ∃ image, machine.loadImage image = (.ok (), left) := by
    rcases reloads with loaded | ⟨source, done⟩ | done
    · exact loaded
    · exact loadSource_done done
    · exact ⟨_, done⟩
  obtain ⟨empty, fine, -⟩ := loadImage_blank loaded
  exact ⟨fine, by rw [trace, empty, List.reverse_nil]⟩

namespace Chronicle

variable {config : Config} {chronicle : Chronicle} {limit : Nat}

/-- A window on the last elements of a list, with room for one, ends as the list does. -/
theorem getLast?_window {α : Type} (list : List α) (room : 1 ≤ limit) :
    (list.drop (list.length - limit)).getLast? = list.getLast? := by
  rw [List.getLast?_drop]
  split
  · -- Nothing is left only of an empty list.
    have empty : list = [] := List.eq_nil_of_length_eq_zero (by omega)
    rw [empty, List.getLast?_nil]
  · rfl

/-- All but the last element behind some others of a list are in the list, and not at its end. -/
theorem mem_dropLast_of_mem_drop {α : Type} {list : List α} {count : Nat} {element : α}
    (listed : element ∈ (list.drop count).dropLast) : element ∈ list.dropLast := by
  -- Cutting the front and cutting the last element commute.
  have same : (list.drop count).dropLast = list.dropLast.drop count := by
    rw [List.dropLast_eq_take, List.dropLast_eq_take, List.drop_take, List.length_drop,
      Nat.sub_right_comm]
  rw [same] at listed
  exact List.mem_of_mem_drop listed

/-- The records of a fault agree in a faithful chronicle. -/
theorem Faithful.agrees (faithful : chronicle.Faithful limit) : chronicle.Noted limit where
  halted noted := by
    refine Decidable.byContradiction fun alive => noted ?_
    exact faithful.unfailed alive
  single := faithful.faultless
  newest := faithful.noted.symm
  shown entry listed := by
    -- What is early in the window is early in the chronicle.
    rw [faithful.window] at listed
    have recorded := mem_dropLast_of_mem_drop listed
    rw [← List.map_dropLast] at recorded
    obtain ⟨recording, early, rfl⟩ := List.mem_map.mp recorded
    exact faithful.faultless recording early
  showing room := by
    have window := faithful.window
    rw [← List.length_map Recording.entry] at window
    rw [window, getLast?_window _ room, List.getLast?_map, Option.bind_map, faithful.noted]
    rfl

/-- The records of a fault agree in every chronicle from power-on. -/
theorem Kept.agrees (kept : chronicle.Kept config) : chronicle.Noted config.traceLimit :=
  kept.upheld.2.agrees

end Chronicle

end Chip8
