import Chip8.Dispatch
import Chip8.Proofs.Execution.Recognized

/-!
A dispatch table beside the whole history of the calls that fill it.

A call assigns a handler to a key that has none, and closes a table only when no operation is
without one.
So a handler stays for good, and a closed table answers to every instruction.
-/

namespace Chip8

/-- One call that fills or closes a dispatch table. -/
inductive DispatchCall where
  /-- Gives a key a handler. -/
  | register (key : DispatchKey) (handler : Handler)
  /-- Registers the standard handlers of all operations. -/
  | registerAll
  /-- Closes the table. -/
  | freeze

namespace DispatchCall

/-- The answer to a call, and the table that it leaves. -/
def perform (call : DispatchCall) (table : DispatchTable) :
    Except DispatchError Unit × DispatchTable :=
  match call with
  | .register key handler => table.register key handler
  | .registerAll => table.registerAll
  | .freeze => table.freeze

/-- A call brings no handler along that is not allowed. -/
def Brings (allowed : Handler → Prop) : DispatchCall → Prop
  | .register _ handler => allowed handler
  | .registerAll | .freeze => True

end DispatchCall

/-- A handler does not report the word of its instruction as one without instruction. -/
def Handler.Candid (handler : Handler) : Prop :=
  ∀ fields registers board, Recognized (handler fields registers board).1

namespace DispatchTable

/-- The table after a history of calls, newest call first. -/
def after : List DispatchCall → DispatchTable
  | [] => .blank
  | call :: earlier => (call.perform (after earlier)).2

/-- A table with further handlers behind its own. -/
def extend (table : DispatchTable) (added : List (DispatchKey × Handler)) : DispatchTable :=
  { table with handlers := table.handlers ++ added }

/-- Every operation has a handler. -/
def Complete (table : DispatchTable) : Prop :=
  ∀ operation, some operation ∈ table.keys

/-- An execution reports its word as one without instruction. -/
def ReportsUnknown (table : DispatchTable) (word : Word) (registers : Registers)
    (board : Board) : Prop :=
  ∃ fault, (table.execute word registers board).1 = .error fault ∧ fault.isUnknown = true

/-- What is true of a table after any history of calls. -/
structure Lawful (calls : List DispatchCall) : Prop where
  /-- The key of words without instruction has no handler. -/
  invalid : none ∉ (after calls).keys
  /-- A handler that was registered is never replaced. -/
  kept : ∀ later key handler, (after calls).handler? key = some handler →
    (after (later ++ calls)).handler? key = some handler
  /-- A closed table never changes again, and every operation has a handler. -/
  closed : (after calls).frozen = true →
    (∀ later, after (later ++ calls) = after calls) ∧ (after calls).Complete
  /-- A word is executed by the handler of its operation. -/
  executed : ∀ (word : Word) (operation : Operation) handler, word.operation? = some operation →
    (after calls).handler? (some operation) = some handler → ∀ registers board,
      (after calls).execute word registers board =
        ((handler word.fields registers board).1.map Registers.countCycle,
          (handler word.fields registers board).2)
  /-- A word without instruction, or without a handler for it, is reported and changes nothing. -/
  reported : ∀ word,
    (∀ operation, word.operation? = some operation → some operation ∉ (after calls).keys) →
      ∀ registers board, (after calls).execute word registers board =
        (.error (.unknownOpcode word (some registers.pc)), board)
  /-- No other word is reported, as long as no handler does so itself. -/
  unknown : (∀ call ∈ calls, call.Brings Handler.Candid) → ∀ word registers board,
    (after calls).ReportsUnknown word registers board ↔
      ∀ operation, word.operation? = some operation → some operation ∉ (after calls).keys
  /-- A closed table reports exactly the words without instruction. -/
  unknownWhenClosed : (∀ call ∈ calls, call.Brings Handler.Candid) → (after calls).frozen = true →
    ∀ word registers board,
      (after calls).ReportsUnknown word registers board ↔ word.decode = none
  /-- A registration is refused by a closed table, for a key without handler, or the second time. -/
  registerRefused : ∀ key handler,
    (∃ refusal, ((DispatchCall.register key handler).perform (after calls)).1 = .error refusal) ↔
      (after calls).frozen = true ∨ key = none ∨ key ∈ (after calls).keys
  /-- Of several reasons to refuse a registration the first one in this order is given. -/
  registerRefusal : ∀ key handler refusal,
    ((DispatchCall.register key handler).perform (after calls)).1 = .error refusal →
      refusal = if (after calls).frozen then .frozen else
        key.elim .unhandleable .alreadyRegistered
  /-- A registration that is not refused gives just this key its handler. -/
  registered : ∀ key handler,
    ((DispatchCall.register key handler).perform (after calls)).1 = .ok () →
      (after (.register key handler :: calls)).handler? key = some handler ∧
        ∀ other, other ≠ key → (after (.register key handler :: calls)).handler? other =
          (after calls).handler? other
  /-- Closing is refused exactly if some operation has no handler. -/
  freezeRefused : (∃ refusal, (DispatchCall.freeze.perform (after calls)).1 = .error refusal) ↔
    ∃ operation, some operation ∉ (after calls).keys
  /-- Where closing is refused, all operations without handler are named. -/
  freezeRefusal : ∀ refusal, (DispatchCall.freeze.perform (after calls)).1 = .error refusal →
    ∃ named, refusal = .unhandled named ∧
      ∀ operation, operation ∈ named ↔ some operation ∉ (after calls).keys
  /-- A table that was closed keeps its handlers. -/
  frozen : (DispatchCall.freeze.perform (after calls)).1 = .ok () →
    after (.freeze :: calls) = { after calls with frozen := true }
  /-- A registration or a closing that is refused changes nothing. -/
  refused : ∀ call refusal, call ≠ .registerAll →
    (call.perform (after calls)).1 = .error refusal → after (call :: calls) = after calls
  /-- Standard handlers are added up to the first refusal, and those before it stay. -/
  allRegistered : ∃ done rest, registrationOrder = done ++ rest ∧
    after (.registerAll :: calls) =
      (after calls).extend (done.map fun operation => (some operation, operation.perform)) ∧
    (rest = [] ∧ (DispatchCall.registerAll.perform (after calls)).1 = .ok () ∨
      ∃ operation more refusal, rest = operation :: more ∧
        ((after (.registerAll :: calls)).register (some operation) operation.perform).1 =
          .error refusal ∧
        (DispatchCall.registerAll.perform (after calls)).1 = .error refusal)

variable {table left : DispatchTable} {key : DispatchKey} {operation : Operation}
  {handler : Handler}

/-! ### Handlers -/

/-- A key has no handler exactly if it is not among those that have one. -/
theorem handler?_eq_none : table.handler? key = none ↔ key ∉ table.keys := by
  -- The search goes through the same entries that are listed.
  simp only [handler?, keys, Option.map_eq_none_iff, List.find?_eq_none, List.mem_map]
  constructor
  · intro unnamed present
    obtain ⟨entry, listed, same⟩ := present
    exact unnamed entry listed (by simp [same])
  · intro absent entry listed named
    exact absent ⟨entry, listed, by simpa using named⟩

/-- A key that was registered has a handler. -/
theorem exists_handler (registered : key ∈ table.keys) :
    ∃ handler, table.handler? key = some handler := by
  cases found : table.handler? key with
  | some handler => exact ⟨handler, rfl⟩
  | none => exact absurd registered (handler?_eq_none.mp found)

/-- The handler that a key has is one of the table. -/
theorem mem_of_handler? (found : table.handler? key = some handler) :
    (key, handler) ∈ table.handlers := by
  obtain ⟨⟨named, given⟩, first, rfl⟩ := Option.map_eq_some_iff.mp found
  have same : named = key := by simpa using List.find?_some first
  exact same ▸ List.mem_of_find?_eq_some first

/-- Further handlers serve only the keys that had none. -/
theorem handler?_extend (added : List (DispatchKey × Handler)) :
    (table.extend added).handler? key =
      (table.handler? key).or (handler? ⟨added, false⟩ key) := by
  simp [handler?, extend, List.find?_append, Option.map_or]

/-- A handler stays when further ones are added. -/
theorem handler?_extend_of_some (added : List (DispatchKey × Handler))
    (found : table.handler? key = some handler) :
    (table.extend added).handler? key = some handler := by
  rw [handler?_extend, found, Option.some_or]

/-- A table is extended by one list of handlers after another. -/
theorem extend_extend (first second : List (DispatchKey × Handler)) :
    (table.extend first).extend second = table.extend (first ++ second) := by
  simp [extend]

/-- A key without a handler is given one behind all others. -/
theorem assign_of_fresh (fresh : key ∉ table.keys) :
    { table with handlers := assign key handler table.handlers } =
      table.extend [(key, handler)] := by
  -- The search for an entry to replace comes to the end of the list.
  have appended : ∀ entries : List (DispatchKey × Handler), key ∉ entries.map Prod.fst →
      assign key handler entries = entries ++ [(key, handler)] := by
    intro entries unlisted
    induction entries with
    | nil => rfl
    | cons entry rest ih =>
      rw [List.map_cons, List.mem_cons, not_or] at unlisted
      have other : ¬(entry.1 == key) = true := by simpa using Ne.symm unlisted.1
      rw [assign, if_neg other, ih unlisted.2, List.cons_append]
  rw [extend, appended table.handlers fresh]

/-! ### Single changes -/

/-- A registration adds a handler for a fresh key, or is refused for the first reason there is. -/
theorem register_cases (table : DispatchTable) (key : DispatchKey) (handler : Handler) :
    (table.frozen = false ∧ key ≠ none ∧ key ∉ table.keys ∧
        table.register key handler = (.ok (), table.extend [(key, handler)])) ∨
      (table.frozen = true ∨ key = none ∨ key ∈ table.keys) ∧
        table.register key handler = (.error (if table.frozen then .frozen else
          key.elim .unhandleable .alreadyRegistered), table) := by
  cases closed : table.frozen with
  | true => simp [register, closed]
  | false =>
    cases key with
    | none => simp [register, closed]
    | some known =>
      -- On an open table the key decides, by whether it has a handler.
      by_cases present : some known ∈ table.keys
      · obtain ⟨given, found⟩ := exists_handler present
        simp [register, closed, found, present]
      · have missing := handler?_eq_none.mpr present
        simp [register, closed, missing, present, ← assign_of_fresh present]

/-- A refused registration leaves the table as it was. -/
theorem register_atomic (table : DispatchTable) (key : DispatchKey) (handler : Handler) :
    Atomic table (table.register key handler) := by
  -- A registration either adds its entry or hands the table back.
  intro refusal left refused
  rcases register_cases table key handler with ⟨-, -, -, done⟩ | ⟨-, kept⟩
  · rw [done] at refused
    cases refused
  · rw [kept] at refused
    exact (Prod.mk.inj refused).2.symm

/-- A registration is refused exactly if there is a reason to. -/
theorem register_refused_iff :
    (∃ refusal, (table.register key handler).1 = .error refusal) ↔
      table.frozen = true ∨ key = none ∨ key ∈ table.keys := by
  rcases register_cases table key handler with ⟨unfrozen, named, fresh, done⟩ | ⟨reason, kept⟩
  · simp [done, unfrozen, named, fresh]
  · simp [kept, reason]

/-- A registration that is not refused serves its own key and no other. -/
theorem handler?_of_register (accepted : (table.register key handler).1 = .ok ()) :
    (table.register key handler).2.handler? key = some handler ∧
      ∀ other, other ≠ key →
        (table.register key handler).2.handler? other = table.handler? other := by
  rcases register_cases table key handler with ⟨-, -, fresh, done⟩ | ⟨-, kept⟩
  · rw [done]
    refine ⟨?_, ?_⟩
    · -- The key had no handler, so the search reaches the new entry.
      rw [handler?_extend, handler?_eq_none.mpr fresh]
      simp [handler?]
    · intro other different
      rw [handler?_extend]
      simp [handler?, different.symm]
  · rw [kept] at accepted
    cases accepted

/-- The missing operations are those that were not registered. -/
theorem mem_missing : operation ∈ table.missing ↔ some operation ∉ table.keys := by
  simp [missing, Operation.mem_all, handler?_eq_none]

/-- No operation is missing exactly from a complete table. -/
theorem missing_eq_nil : table.missing = [] ↔ table.Complete := by
  simp [List.eq_nil_iff_forall_not_mem, mem_missing, Complete]

/-- A complete table closes and keeps its handlers, and any other names what it lacks. -/
theorem freeze_cases (table : DispatchTable) :
    (table.Complete ∧ table.freeze = (.ok (), { table with frozen := true })) ∨
      ¬table.Complete ∧ table.freeze = (.error (.unhandled table.missing), table) := by
  -- The table looks for missing operations, of which a complete one has none.
  rw [← missing_eq_nil]
  by_cases complete : table.missing = []
  · exact .inl ⟨complete, by simp [freeze, complete]⟩
  · exact .inr ⟨complete, by simp [freeze, complete]⟩

/-- A refused closing leaves the table as it was. -/
theorem freeze_atomic (table : DispatchTable) : Atomic table table.freeze := by
  -- A table is closed, or handed back as it is.
  intro refusal left refused
  rcases table.freeze_cases with ⟨-, done⟩ | ⟨-, kept⟩
  · rw [done] at refused
    cases refused
  · rw [kept] at refused
    exact (Prod.mk.inj refused).2.symm

/-- Closing is refused exactly if some operation has no handler. -/
theorem freeze_refused_iff : (∃ refusal, table.freeze.1 = .error refusal) ↔
    ∃ operation, some operation ∉ table.keys := by
  -- To be incomplete is to lack the handler of some operation.
  have lacking : (∃ operation, some operation ∉ table.keys) ↔ ¬table.Complete :=
    Classical.not_forall.symm
  rw [lacking]
  rcases table.freeze_cases with ⟨complete, done⟩ | ⟨incomplete, kept⟩
  · simp [done, complete]
  · simp [kept, incomplete]

/-! ### What every call keeps -/

/-- A property of tables that single additions of allowed handlers and closing keep. -/
structure Keeps (allowed : Handler → Prop) (holds : DispatchTable → Prop) : Prop where
  /-- An open table may get an allowed handler for an operation that has none. -/
  extend : ∀ {table operation handler}, holds table → table.frozen = false →
    some operation ∉ table.keys → allowed handler →
      holds (table.extend [(some operation, handler)])
  /-- A complete table may be closed. -/
  close : ∀ {table}, holds table → table.Complete → holds { table with frozen := true }

namespace Keeps

variable {allowed : Handler → Prop} {holds : DispatchTable → Prop}

/-- A registration keeps the property, whether it is refused or not. -/
theorem register (keeps : Keeps allowed holds) (now : holds table) (fit : allowed handler)
    (key : DispatchKey) : holds (table.register key handler).2 := by
  rcases register_cases table key handler with ⟨unfrozen, named, fresh, done⟩ | ⟨-, kept⟩
  · obtain ⟨operation, rfl⟩ := Option.ne_none_iff_exists'.mp named
    rw [done]
    exact keeps.extend now unfrozen fresh fit
  · rw [kept]
    exact now

/-- Registering standard handlers one by one keeps the property. -/
theorem registerEach (keeps : Keeps allowed holds)
    (fit : ∀ operation : Operation, allowed operation.perform) (operations : List Operation)
    (now : holds table) : holds (table.registerEach operations).2 := by
  -- The table is general, since each registration leaves a new one to the rest.
  induction operations generalizing table with
  | nil => exact now
  | cons operation rest ih =>
    have next := keeps.register now (fit operation) (some operation)
    unfold DispatchTable.registerEach
    split
    · rename_i extended accepted
      rw [accepted] at next
      exact ih next
    · rename_i refusal left refused
      rw [refused] at next
      exact next

/-- Closing keeps the property, whether it is refused or not. -/
theorem freeze (keeps : Keeps allowed holds) (now : holds table) : holds table.freeze.2 := by
  rcases table.freeze_cases with ⟨complete, done⟩ | ⟨-, kept⟩
  · rw [done]
    exact keeps.close now complete
  · rw [kept]
    exact now

/-- Every call keeps the property. -/
theorem perform (keeps : Keeps allowed holds)
    (fit : ∀ operation : Operation, allowed operation.perform) {call : DispatchCall}
    (brings : call.Brings allowed) (now : holds table) : holds (call.perform table).2 := by
  -- Registering all is registering one after the other.
  cases call with
  | register key handler => exact keeps.register now brings key
  | registerAll => exact keeps.registerEach fit _ now
  | freeze => exact keeps.freeze now

/-- Every history of calls keeps the property. -/
theorem after (keeps : Keeps allowed holds)
    (fit : ∀ operation : Operation, allowed operation.perform) (calls : List DispatchCall)
    {later : List DispatchCall} (brings : ∀ call ∈ later, call.Brings allowed)
    (now : holds (after calls)) : holds (after (later ++ calls)) := by
  induction later with
  | nil => exact now
  | cons call earlier ih =>
    -- The newest call finds the table that the earlier ones left.
    have before := ih fun other listed => brings other (List.mem_cons_of_mem _ listed)
    exact keeps.perform fit (brings call List.mem_cons_self) before

/-- What holds of the blank table holds after every history of calls. -/
theorem always (keeps : Keeps allowed holds)
    (fit : ∀ operation : Operation, allowed operation.perform) {calls : List DispatchCall}
    (brings : ∀ call ∈ calls, call.Brings allowed) (initially : holds .blank) :
    holds (DispatchTable.after calls) := by
  have all := keeps.after fit [] brings initially
  rwa [List.append_nil] at all

end Keeps

/-- No call brings a handler that is not allowed where all are. -/
theorem brings_any (calls : List DispatchCall) :
    ∀ call ∈ calls, call.Brings fun _ => True := by
  intro call _
  cases call <;> trivial

/-! ### Invariants -/

/-- The key of words without instruction is never registered. -/
theorem none_not_mem_keys (calls : List DispatchCall) : none ∉ (after calls).keys := by
  -- An entry is added only under a key that names an operation.
  have keeps : Keeps (fun _ => True) fun table => none ∉ table.keys :=
    { extend := fun now _ _ _ => by simpa [keys, extend] using now
      close := fun now _ => now }
  exact keeps.always (fun _ => trivial) (brings_any calls) List.not_mem_nil

/-- A handler is never replaced. -/
theorem handler?_later (calls later : List DispatchCall)
    (found : (after calls).handler? key = some handler) :
    (after (later ++ calls)).handler? key = some handler :=
  have keeps : Keeps (fun _ => True) fun table => table.handler? key = some handler :=
    { extend := fun now _ _ _ => handler?_extend_of_some _ now
      close := fun now _ => now }
  keeps.after (fun _ => trivial) calls (brings_any later) found

/-- A closed table is complete. -/
theorem complete_of_frozen (calls : List DispatchCall) (closed : (after calls).frozen = true) :
    (after calls).Complete := by
  -- An open table has nothing to keep, and only a complete one is closed.
  have keeps : Keeps (fun _ => True) fun table => table.frozen = true → table.Complete :=
    { extend := fun _ unfrozen _ _ closed => absurd (unfrozen.symm.trans closed) (by decide)
      close := fun _ complete _ => complete }
  -- The blank table is open.
  exact keeps.always (fun _ => trivial) (brings_any calls) (fun closed => nomatch closed) closed

/-- A closed table never changes again. -/
theorem later_of_frozen (calls later : List DispatchCall) (closed : (after calls).frozen = true) :
    after (later ++ calls) = after calls := by
  -- The only change that a closed table takes is to be closed.
  have keeps : Keeps (fun _ => True) fun table => table = after calls :=
    { extend := fun now unfrozen _ _ =>
        absurd (unfrozen.symm.trans (now ▸ closed)) (by decide)
      close := fun now _ => by
        subst now
        simp [← closed] }
  exact keeps.after (fun _ => trivial) calls (brings_any later) rfl

/-- The standard handlers are candid. -/
theorem candid_perform (operation : Operation) : Handler.Candid operation.perform :=
  operation.recognized_perform

/-- Where calls bring only candid handlers, all handlers of the table are candid. -/
theorem candid_after {calls : List DispatchCall}
    (candid : ∀ call ∈ calls, call.Brings Handler.Candid)
    (found : (after calls).handler? key = some handler) : handler.Candid := by
  -- Only entries can break the property, and each was brought by some call.
  have keeps : Keeps Handler.Candid fun table => ∀ entry ∈ table.handlers, entry.2.Candid :=
    { extend := fun now _ _ fit entry listed => by
        rcases List.mem_append.mp listed with before | added
        · exact now entry before
        · rw [List.mem_singleton.mp added]
          exact fit
      close := fun now _ => now }
  exact keeps.always candid_perform candid (fun entry listed => nomatch listed) _
    (mem_of_handler? found)

/-! ### Execution -/

variable {word : Word}

/-- A word is executed by the handler of its operation. -/
theorem execute_of_handler (meant : word.operation? = some operation)
    (found : table.handler? (some operation) = some handler) (registers : Registers)
    (board : Board) :
    table.execute word registers board =
      ((handler word.fields registers board).1.map Registers.countCycle,
        (handler word.fields registers board).2) := by
  simp [execute, meant, found]

/-- A word without instruction, or without a handler for it, is reported and changes nothing. -/
theorem execute_unhandled
    (unhandled : ∀ operation, word.operation? = some operation → some operation ∉ table.keys)
    (registers : Registers) (board : Board) :
    table.execute word registers board =
      (.error (.unknownOpcode word (some registers.pc)), board) := by
  -- A word may mean nothing, or an operation that nobody has registered.
  unfold execute
  cases meant : word.operation? with
  | none => rfl
  | some operation =>
    have missing := handler?_eq_none.mpr (unhandled operation meant)
    simp [missing]

/-- A table of candid handlers reports exactly the words that it has no handler for. -/
theorem reportsUnknown_iff
    (candid : ∀ {key handler}, table.handler? key = some handler → handler.Candid)
    (word : Word) (registers : Registers) (board : Board) :
    table.ReportsUnknown word registers board ↔
      ∀ operation, word.operation? = some operation → some operation ∉ table.keys := by
  constructor
  · intro reported operation meant present
    obtain ⟨fault, failed, named⟩ := reported
    obtain ⟨handler, found⟩ := exists_handler present
    rw [execute_of_handler meant found] at failed
    -- The fault is the handler's own, and a candid handler has another one.
    have other := candid found word.fields registers board fault (map_eq_error.mp failed)
    rw [other] at named
    cases named
  · intro unhandled
    exact ⟨_, congrArg Prod.fst (execute_unhandled unhandled registers board), rfl⟩

/-- A complete table of candid handlers reports exactly the words without instruction. -/
theorem reportsUnknown_of_complete
    (candid : ∀ {key handler}, table.handler? key = some handler → handler.Candid)
    (complete : table.Complete) (word : Word) (registers : Registers) (board : Board) :
    table.ReportsUnknown word registers board ↔ word.decode = none := by
  rw [reportsUnknown_iff candid, Word.operation?]
  -- Every instruction has a handler, so a word that is reported has no instruction.
  cases word.decode with
  | none => simp
  | some instruction => simp [complete instruction.operation]

/-! ### All standard handlers -/

/-- Standard handlers are added up to the first that is refused. -/
theorem registerEach_split (table : DispatchTable) (operations : List Operation) :
    ∃ done rest, operations = done ++ rest ∧
      (table.registerEach operations).2 =
        table.extend (done.map fun operation => (some operation, operation.perform)) ∧
      (rest = [] ∧ (table.registerEach operations).1 = .ok () ∨
        ∃ operation more refusal, rest = operation :: more ∧
          ((table.registerEach operations).2.register (some operation) operation.perform).1 =
            .error refusal ∧
          (table.registerEach operations).1 = .error refusal) := by
  -- The first registration decides whether the others are tried at all.
  induction operations generalizing table with
  | nil => exact ⟨[], [], rfl, by simp [registerEach, extend], .inl ⟨rfl, rfl⟩⟩
  | cons operation rest ih =>
    rcases register_cases table (some operation) operation.perform with
      ⟨-, -, -, added⟩ | ⟨-, refused⟩
    · obtain ⟨done, left, parts, made, answer⟩ :=
        ih (table.extend [(some operation, operation.perform)])
      simp only [registerEach, added]
      refine ⟨operation :: done, left, by rw [parts, List.cons_append], ?_, answer⟩
      rw [made, extend_extend]
      rfl
    · simp only [registerEach, refused]
      exact ⟨[], operation :: rest, rfl, by simp [extend],
        .inr ⟨operation, rest, _, rfl, congrArg Prod.fst refused, rfl⟩⟩

/-! ### The whole protocol -/

/--
The protocol of registration, for every history of calls on a blank table.

A handler is never replaced, and a closed table has one for every operation and never changes again.
So a closed table reports exactly the words without instruction, and an open one those as well whose
operation has no handler yet.
A registration is refused by a closed table, for the key of words without instruction, or for an
operation that has a handler; closing is refused as long as some operation has none.
What is refused changes nothing, but registering all keeps what came before its refusal.
-/
theorem registration_lawful (calls : List DispatchCall) : Lawful calls where
  invalid := none_not_mem_keys calls
  kept later _ _ found := handler?_later calls later found
  closed closed :=
    ⟨fun later => later_of_frozen calls later closed, complete_of_frozen calls closed⟩
  executed _ _ _ meant found := execute_of_handler meant found
  reported _ unhandled := execute_unhandled unhandled
  unknown candid := reportsUnknown_iff (candid_after candid)
  unknownWhenClosed candid closed :=
    reportsUnknown_of_complete (candid_after candid) (complete_of_frozen calls closed)
  registerRefused _ _ := register_refused_iff
  registerRefusal := by
    intro key handler refusal refused
    rw [DispatchCall.perform] at refused
    rcases register_cases (after calls) key handler with ⟨-, -, -, done⟩ | ⟨-, kept⟩
    · rw [done] at refused
      cases refused
    · rw [kept] at refused
      exact (Except.error.inj refused).symm
  registered _ _ accepted := handler?_of_register accepted
  freezeRefused := freeze_refused_iff
  freezeRefusal := by
    intro refusal refused
    rw [DispatchCall.perform] at refused
    rcases (after calls).freeze_cases with ⟨-, done⟩ | ⟨-, kept⟩
    · rw [done] at refused
      cases refused
    · rw [kept] at refused
      exact ⟨_, (Except.error.inj refused).symm, fun operation => mem_missing⟩
  frozen := by
    intro accepted
    rw [DispatchCall.perform] at accepted
    rcases (after calls).freeze_cases with ⟨-, done⟩ | ⟨-, kept⟩
    · rw [after, DispatchCall.perform, done]
    · rw [kept] at accepted
      cases accepted
  refused := by
    intro call refusal single failed
    -- Both single changes hand a refused table back.
    cases call with
    | register key handler => exact register_atomic _ key handler refusal _ (Prod.ext failed rfl)
    | registerAll => exact absurd rfl single
    | freeze => exact freeze_atomic _ refusal _ (Prod.ext failed rfl)
  allRegistered := registerEach_split (after calls) registrationOrder

/-- A table is closed too early, filled, closed, and filled once more, newest call first. -/
def settled : List DispatchCall :=
  [.registerAll, .freeze, .registerAll, .freeze]

/-- Then it is closed and complete, and reports only a word without instruction. -/
theorem registration_lawful_settled :
    (∀ call ∈ settled, call.Brings Handler.Candid) ∧ (after settled).frozen = true ∧
      (after settled).Complete ∧ ∀ registers board,
        (after settled).ReportsUnknown (.ofByte 0xF 0 0x00) registers board ∧
          ¬(after settled).ReportsUnknown (.ofByte 0xF 0 0x1E) registers board := by
  have lawful := registration_lawful settled
  have candid : ∀ call ∈ settled, call.Brings Handler.Candid := by
    simp [settled, DispatchCall.Brings]
  have frozen : (after settled).frozen = true := by decide
  refine ⟨candid, frozen, (lawful.closed frozen).2, ?_⟩
  intro registers board
  have reports := fun word => lawful.unknownWhenClosed candid frozen word registers board
  -- Of the two words one means nothing.
  constructor
  · exact (reports _).mpr rfl
  · rw [reports]
    decide

end DispatchTable

end Chip8
