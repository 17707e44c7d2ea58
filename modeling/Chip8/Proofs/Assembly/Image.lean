import Chip8.Assembly.Image
import Chip8.Proofs.Assembly.Layout

/-!
What the image of a laid-out program holds.

Emitting follows the addresses of the layout, so that every command's bytes stand at its address and
only zeros stand between commands.
-/

namespace Chip8

/-- Answers to all of a list are as many as the list is long. -/
theorem mapM_length {ε α β : Type} {function : α → Except ε β} {inputs : List α}
    {outputs : List β} (done : inputs.mapM function = .ok outputs) :
    outputs.length = inputs.length := by
  -- Each answer to the rest stands behind one answer to the first.
  induction inputs generalizing outputs with
  | nil =>
    obtain rfl := Except.ok.inj done
    rfl
  | cons first rest ih =>
    rw [List.mapM_cons] at done
    obtain ⟨output, -, done⟩ := bind_eq_ok.mp done
    obtain ⟨others, answered, done⟩ := bind_eq_ok.mp done
    obtain rfl := Except.ok.inj done
    rw [List.length_cons, List.length_cons, ih answered]

/-- A command is encoded to as many bytes as its size says. -/
theorem Command.encode_length {labels : Labels} {command : Command} {bytes : List Byte}
    (done : command.encode labels = .ok bytes) : bytes.length = command.size := by
  -- A run of bytes has one byte for each operand.
  unfold Command.encode at done
  split at done
  · rename_i data
    split at done
    · cases done
    · rw [mapM_length done, Command.size, if_pos data]
  · rename_i code
    split at done
    · cases done
    · rename_i mnemonic found
      -- Any other command is one word, which has two bytes.
      obtain ⟨word, -, rfl⟩ := map_eq_ok.mp done
      rw [Command.size, if_neg code]
      rfl

namespace Layout

variable {labels : Labels} {position : Int} {first entry : Placed} {rest placed : List Placed}
  {image : List Byte} {index : Nat}

/-- The image of placed commands is a gap, the bytes of the first, and the image of the others. -/
theorem emit_cons_eq_ok (done : emit labels position (first :: rest) = .ok image) :
    ∃ bytes behind, first.command.encode labels = .ok bytes ∧
      bytes.length = first.command.size ∧ emit labels first.finish rest = .ok behind ∧
      image = List.replicate (first.address - position).toNat 0 ++ bytes ++ behind := by
  -- The position behind the bytes is where the layout says that the command ends.
  unfold emit at done
  split at done
  · cases done
  · rename_i bytes encoded
    have size := Command.encode_length encoded
    have finish : first.address + (bytes.length : Int) = first.finish := by
      rw [size, Placed.finish]
    simp only [finish] at done
    obtain ⟨behind, emitted, same⟩ := map_eq_ok.mp done
    exact ⟨bytes, behind, encoded, size, emitted, same.symm⟩

/-- The image ends where the last of consecutive commands ends. -/
theorem emit_length (consecutive : Consecutive position placed)
    (done : emit labels position placed = .ok image) :
    position + image.length = finish position placed := by
  -- The image of the others starts where the first command ends.
  induction placed generalizing position image with
  | nil =>
    obtain rfl := Except.ok.inj done
    simp [finish]
  | cons first rest ih =>
    obtain ⟨bytes, behind, -, size, emitted, rfl⟩ := emit_cons_eq_ok done
    obtain ⟨starts, -, others⟩ := consecutive
    have length := ih others emitted
    have after := le_startFrom first.command position
    -- Gap, bytes and rest fill the way from the position to the end.
    rw [finish, ← length, Placed.finish]
    simp only [List.length_append, List.length_replicate]
    omega

/-- The image falls into what stands before a command, its gap, its bytes, and what is behind. -/
theorem emit_split (consecutive : Consecutive position placed)
    (done : emit labels position placed = .ok image) (found : placed[index]? = some entry) :
    ∃ front gap bytes behind, image = front ++ List.replicate gap 0 ++ bytes ++ behind ∧
      position + front.length = finish position (placed.take index) ∧
      position + (front.length + gap : Nat) = entry.address ∧
      entry.command.encode labels = .ok bytes ∧ bytes.length = entry.command.size := by
  -- The command is the first, behind its gap alone, or stands in the image of the others.
  induction placed generalizing position image index with
  | nil => simp at found
  | cons first rest ih =>
    obtain ⟨bytes, behind, encoded, size, emitted, rfl⟩ := emit_cons_eq_ok done
    obtain ⟨starts, -, others⟩ := consecutive
    have after := le_startFrom first.command position
    cases index with
    | zero =>
      rw [List.getElem?_cons_zero, Option.some.injEq] at found
      subst found
      refine ⟨[], (first.address - position).toNat, bytes, behind, rfl, ?_, ?_, encoded, size⟩
      · simp [finish]
      · simp only [List.length_nil]
        omega
    | succ index =>
      obtain ⟨front, gap, own, tail, rfl, ends, address, encoded, width⟩ := ih others emitted found
      -- What stands before a later command begins with the gap and the bytes of the first.
      refine ⟨List.replicate (first.address - position).toNat 0 ++ bytes ++ front, gap, own, tail,
        by simp only [List.append_assoc], ?_, ?_, encoded, width⟩
      · rw [List.take_succ_cons, finish, ← ends, Placed.finish]
        simp only [List.length_append, List.length_replicate]
        omega
      · rw [← address, Placed.finish]
        simp only [List.length_append, List.length_replicate]
        omega

/-- The bytes of every command stand in the image at its address. -/
theorem emit_bytes (consecutive : Consecutive position placed)
    (done : emit labels position placed = .ok image) (found : placed[index]? = some entry) :
    ∃ front bytes behind, image = front ++ bytes ++ behind ∧
      position + front.length = entry.address ∧
      entry.command.encode labels = .ok bytes ∧ bytes.length = entry.command.size := by
  -- What stands before the bytes ends with the gap.
  obtain ⟨front, gap, bytes, behind, same, -, address, encoded, size⟩ :=
    emit_split consecutive done found
  refine ⟨front ++ List.replicate gap 0, bytes, behind, same, ?_, encoded, size⟩
  rw [List.length_append, List.length_replicate, address]

/-- Between the end of one command and the start of the next there are zeros. -/
theorem emit_gap (consecutive : Consecutive position placed)
    (done : emit labels position placed = .ok image) (found : placed[index]? = some entry)
    {address : Int} (behind : finish position (placed.take index) ≤ address)
    (before : address < entry.address) : image[(address - position).toNat]? = some 0 := by
  obtain ⟨front, gap, bytes, behind, rfl, ends, start, -, -⟩ := emit_split consecutive done found
  -- The address lies behind what stands before the gap, and before the bytes.
  obtain ⟨offset, inside, place⟩ : ∃ offset, offset < gap ∧
      (address - position).toNat = front.length + offset :=
    ⟨(address - position).toNat - front.length, by omega, by omega⟩
  rw [place, List.append_assoc, List.append_assoc, List.getElem?_append_right (by omega),
    Nat.add_sub_cancel_left, List.getElem?_append_left (by simpa using inside),
    List.getElem?_replicate, if_pos inside]

end Layout

end Chip8
