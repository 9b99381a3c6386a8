/-
`Read` and `Write` of `exception.cc`, with the kernel's buffer.

`Read` has a buffer of 1024 bytes on the heap, with anything in it. What is stored there first
(by `scanf` or `recv`) and how much of it is copied out to the user program are two different
things: on the console the copy is of `size` bytes, however short the word was that was typed.
A program that goes outside the buffer is one that has the fault `outside`; where the copying is
ended by an exception before it comes to the end of the buffer, that is not so. A page fault does not
end it: its handler does nothing, and `nachosToSystem` does not look at what `WriteMem` returns.

[`staysInside_iff`] says for which arguments and which data `Read` stays inside its buffer, and
[`console_iff`] when the two console calls do what `syscall.h` says of them.
-/
import Mathlib.Data.List.TakeWhile
import LoadBalancer.Lib.Checked
import LoadBalancer.NachOS.SystemCalls

set_option autoImplicit false

namespace LoadBalancer.NachOS

open LoadBalancer.Memory LoadBalancer.Checked

namespace Console

open SystemCalls (ConsoleInput ConsoleOutput ConsoleError HostCall)

/-! ## The code -/

/-- What ends a system call. -/
inductive Fault
  /-- An access outside the kernel's buffer. -/
  | outside
  /-- An exception of the machine that fails an `ASSERT`. -/
  | exception
deriving DecidableEq, Repr

/-- The size of the buffer of `NachOS_Read`. -/
def bufferSize : ℕ := 1024

/-- `new char[1024]`, with anything in it. -/
structure KernelBuffer where
  bytes : List Byte
  length_eq : bytes.length = bufferSize

/-- `isspace`. -/
def isspace (c : Byte) : Bool := c == 32 || (9 ≤ c.toNat && c.toNat ≤ 13)

/-- The word that `scanf("%s")` reads of what is typed up to the end of the input. -/
def word (typed : List Byte) : List Byte := (typed.dropWhile isspace).takeWhile (!isspace ·)

/-- `scanf("%s", buffer)`: without a word nothing is stored. -/
def scanf (typed buffer : List Byte) : Except Fault (List Byte) :=
  if word typed = [] then .ok buffer
  else if (word typed).length + 1 ≤ buffer.length then
    .ok (word typed ++ 0 :: buffer.drop ((word typed).length + 1))
  else .error .outside

/-- The conversion of an `int` to `size_t`. -/
def toSizeT (n : ℤ) : ℕ := (n % 18446744073709551616).toNat

/-- `recv(handle, buffer, size, MSG_WAITALL)`, of which `arrives` is all that comes on the
connection, if it does not fail: the buffer and what `recv` returns. -/
def recv (arrives : Option (List Byte)) (size : ℤ) (buffer : List Byte) :
    Except Fault (List Byte × ℤ) :=
  match arrives with
  | none => .ok (buffer, -1)
  | some data =>
      let received := data.take (toSizeT size)
      if received.length ≤ buffer.length then
        .ok (received ++ buffer.drop received.length, received.length)
      else .error .outside

/-- The loop of `nachosToSystem` from `i` on, for `n` more bytes. -/
def copyOut (virtual_address : ℤ) (buffer : List Byte) :
    ℕ → ℕ → Machine → Except Fault Machine
  | 0, _, m => .ok m
  | n + 1, i, m =>
      match buffer[i]? with
      | none => .error .outside
      | some buffer_local =>
          match m.WriteMem (virtual_address + i) buffer_local.toInt with
          | none => .error .exception
          | some (_, m) => copyOut virtual_address buffer n (i + 1) m

/-- `nachosToSystem`. -/
def nachosToSystem (virtual_address : ℤ) (buffer : List Byte) (size : ℤ) (m : Machine) :
    Except Fault (Machine × ℤ) :=
  if size < 0 then .ok (m, -1)
  else if size = 0 then .ok (m, size)
  else (copyOut virtual_address buffer size.toNat 0 m).map fun m => (m, size)

/-- `strlen(buffer)`. -/
def strlen (buffer : List Byte) : Except Fault ℕ :=
  if 0 ∈ buffer then .ok (buffer.takeWhile (· ≠ 0)).length else .error .outside

/-- The machine after a system call, its register 2, and what `numConsoleCharsRead` goes up by. -/
structure Result where
  machine : Machine
  register2 : ℤ
  numConsoleCharsRead : ℤ

/-- `NachOS_Read`, with what is typed on the console, and what arrives on the descriptor of the
handle. -/
def NachOS_Read (pointer size id : ℤ) (typed : List Byte) (arrives : Option (List Byte))
    (buffer : KernelBuffer) (m : Machine) : Except Fault Result :=
  if id = ConsoleInput then do
    let buffer ← scanf typed buffer.bytes
    let r ← nachosToSystem pointer buffer size m
    let chars ← strlen buffer
    .ok ⟨r.1, r.2, chars⟩
  else if id = ConsoleOutput then .ok ⟨m, -1, 0⟩
  else if id = ConsoleError then .ok ⟨m, 0, 0⟩
  else do
    let received ← recv arrives size buffer.bytes
    let r ← nachosToSystem pointer received.1 received.2 m
    .ok ⟨r.1, received.2, received.2⟩

/-- `NachOS_Write`: the machine, register 2 and what the host is asked. -/
def NachOS_Write (t : OpenFilesTable) (pointer size id position written : ℤ) (m : Machine) :
    Option (Machine × ℤ × List HostCall) :=
  (m.systemToNachos pointer size).bind fun (buffer, m) =>
    (SystemCalls.NachOS_Write t pointer size id position buffer written).map fun r => (m, r)

/-! ## Addresses at which a write comes back -/

/-- The exceptions that are not handled: all but the page fault. -/
def Unhandled (e : ExceptionType) : Prop := e ≠ .PageFaultException

instance (e : ExceptionType) : Decidable (Unhandled e) := inferInstanceAs (Decidable (_ ≠ _))

/-- A write to this address does not end Nachos: the byte is stored, or there is a page fault. -/
def Passable (m : Machine) (a : ℤ) : Prop :=
  ∀ e, m.Translate a 1 true = .error e → ¬ Unhandled e

section Passable

variable {m m' : Machine} {a b : ℤ}

theorem passable_iff : Passable m a ↔
    ∃ e, m.pageTable[toUnsigned a / PageSize]? = some e
      ∧ (e.valid = false ∨ (e.readOnly = false ∧ toUnsigned e.physicalPage < NumPhysPages)) := by
  have hsize : ¬ ((1 = 4 ∧ a % 4 ≠ 0) ∨ (1 = 2 ∧ a % 2 ≠ 0)) := by
    rintro (⟨h, -⟩ | ⟨h, -⟩)
    · exact absurd h (by decide)
    · exact absurd h (by decide)
  rw [Passable, Machine.Translate, if_neg hsize]
  dsimp only
  cases m.pageTable[toUnsigned a / PageSize]? with
  | none => exact iff_of_false (fun h => h _ rfl nofun) fun ⟨e, he, _⟩ => nomatch he
  | some e =>
      simp only [Option.some.injEq, exists_eq_left']
      cases hvalid : e.valid with
      | false => simp [Unhandled]
      | true =>
          cases hread : e.readOnly with
          | true => simp [Unhandled]
          | false =>
              by_cases hframe : toUnsigned e.physicalPage < NumPhysPages
              · simp [hframe, Nat.not_le.mpr hframe]
              · simp [hframe, Nat.not_lt.mp hframe, Unhandled]

/-- An access leaves these addresses what they are. -/
theorem passable_touch (vpn : ℕ) (writing : Bool) :
    Passable (m.touch vpn writing) b ↔ Passable m b := by
  rw [passable_iff, passable_iff, Machine.touch]
  dsimp only
  rw [List.getElem?_modify]
  cases m.pageTable[toUnsigned b / PageSize]? with
  | none => rfl
  | some e =>
      rw [Option.map_eq_map, Option.map_some]
      split_ifs
      · simp only [Option.some.injEq, exists_eq_left', TranslationEntry.touch]
      · rfl

/-- The machine after a translation. -/
theorem machine_of_translate {size p : ℕ} {writing : Bool}
    (h : m.Translate a size writing = .ok (p, m')) :
    m' = m.touch (toUnsigned a / PageSize) writing := by
  rw [Machine.Translate] at h
  split_ifs at h
  dsimp only at h
  cases hentry : m.pageTable[toUnsigned a / PageSize]? with
  | none =>
      rw [hentry] at h
      cases h
  | some e =>
      rw [hentry] at h
      dsimp only at h
      split_ifs at h
      cases h
      rw [Machine.touch, List.modify_eq_set_getElem?, hentry]
      rfl

/-- **A write** comes back at these addresses, and leaves them what they are. -/
theorem passable_of_writeMem {value : ℤ} {done : Bool} (h : m.WriteMem a value = some (done, m')) :
    Passable m a ∧ ∀ b, Passable m' b ↔ Passable m b := by
  rw [Machine.WriteMem] at h
  cases htranslate : m.Translate a 1 true with
  | error e =>
      rw [htranslate] at h
      cases e with
      | PageFaultException =>
          cases h
          refine ⟨fun e he hun => ?_, fun b => Iff.rfl⟩
          rw [htranslate] at he
          cases he
          exact hun rfl
      | ReadOnlyException | BusErrorException | AddressErrorException => cases h
  | ok r =>
      obtain ⟨p, m₁⟩ := r
      rw [htranslate] at h
      cases h
      obtain rfl := machine_of_translate htranslate
      refine ⟨fun e he => ?_, fun b => ?_⟩
      · rw [htranslate] at he
        cases he
      refine Iff.trans ?_ (passable_touch (toUnsigned a / PageSize) true)
      rw [passable_iff, passable_iff]

theorem writeMem_eq_none_iff {value : ℤ} : m.WriteMem a value = none ↔ ¬ Passable m a := by
  rw [Machine.WriteMem, Passable]
  cases m.Translate a 1 true with
  | error e =>
      simp only [Except.error.injEq, forall_eq']
      cases e with
      | PageFaultException => simp [Unhandled]
      | ReadOnlyException | BusErrorException | AddressErrorException => simp [Unhandled]
  | ok r =>
      constructor
      · intro h
        cases h
      · exact fun h => absurd (fun e he => by cases he) h

end Passable

/-! ## The copy to the user program -/

/-- The copy is ended by an exception that is not handled, before it comes to the end of the
buffer. -/
def Stops (pointer size : ℤ) (m : Machine) : Prop :=
  ∃ j : ℕ, j < size.toNat ∧ j < bufferSize ∧ ¬ Passable m (pointer + j)

section Copy

variable {pointer size : ℤ} {buffer : List Byte} {n i : ℕ} {m : Machine}

/-- One more byte. -/
theorem copyOut_succ (hi : i < buffer.length) :
    copyOut pointer buffer (n + 1) i m = match m.WriteMem (pointer + i) buffer[i].toInt with
      | none => .error .exception
      | some (_, m) => copyOut pointer buffer n (i + 1) m := by
  rw [copyOut, List.getElem?_eq_getElem hi]

/-- At an address at which a write does not come back the copy ends. -/
theorem copyOut_of_stops {j : ℕ} (hij : i ≤ j) (hjn : j < i + n) (hj : j < buffer.length)
    (hstop : ¬ Passable m (pointer + j)) : copyOut pointer buffer n i m = .error .exception := by
  induction n generalizing i m with
  | zero => omega
  | succ n ih =>
      have hi : i < buffer.length := by omega
      rw [copyOut_succ hi]
      cases hwrite : m.WriteMem (pointer + i) buffer[i].toInt with
      | none => rfl
      | some r =>
          obtain ⟨hhere, hkeep⟩ := passable_of_writeMem hwrite
          have hne : i ≠ j := by
            rintro rfl
            exact hstop hhere
          exact ih (by omega) (by omega) fun h => hstop ((hkeep _).mp h)

/-- If it does not end there, a copy of too many bytes comes to the end of the buffer. -/
theorem copyOut_of_long (hi : i ≤ buffer.length) (hlong : buffer.length < i + n)
    (hall : ∀ j : ℕ, i ≤ j → j < buffer.length → Passable m (pointer + j)) :
    copyOut pointer buffer n i m = .error .outside := by
  induction n generalizing i m with
  | zero => omega
  | succ n ih =>
      rcases Nat.eq_or_lt_of_le hi with heq | hlt
      · rw [copyOut, List.getElem?_eq_none (by omega)]
      · rw [copyOut_succ hlt]
        cases hwrite : m.WriteMem (pointer + i) buffer[i].toInt with
        | none => exact absurd (hall i le_rfl hlt) (writeMem_eq_none_iff.mp hwrite)
        | some r =>
            obtain ⟨-, hkeep⟩ := passable_of_writeMem hwrite
            exact ih (by omega) (by omega) fun j hij hj => (hkeep _).mpr (hall j (by omega) hj)

/-- Inside the buffer the loop is the one of `Machine.lean`. -/
theorem copyOut_eq (hin : i + n ≤ buffer.length) :
    copyOut pointer buffer n i m
      = (m.writeBytes (pointer + i) ((buffer.drop i).take n)).elim (.error .exception) .ok := by
  induction n generalizing i m with
  | zero =>
      rw [List.take_zero]
      rfl
  | succ n ih =>
      have hi : i < buffer.length := by omega
      rw [copyOut_succ hi, List.drop_eq_getElem_cons hi, List.take_succ_cons, Machine.writeBytes]
      cases m.WriteMem (pointer + i) buffer[i].toInt with
      | none => rfl
      | some r =>
          rw [Option.bind_some, Int.add_assoc, ← Int.natCast_succ]
          exact ih (by omega)

/-- And so is the whole copy. -/
theorem nachosToSystem_eq (hin : size ≤ buffer.length) :
    nachosToSystem pointer buffer size m
      = (m.nachosToSystem pointer buffer size).elim (.error .exception) .ok := by
  rw [nachosToSystem, Machine.nachosToSystem]
  by_cases hneg : size < 0
  · rw [if_pos hneg, if_pos hneg]
    rfl
  · rw [if_neg hneg, if_neg hneg]
    by_cases hzero : size = 0
    · rw [if_pos hzero, if_pos hzero]
      rfl
    · rw [if_neg hzero, if_neg hzero, if_pos hin, copyOut_eq (by omega), List.drop_zero,
        Int.natCast_zero, Int.add_zero]
      cases m.writeBytes pointer (buffer.take size.toNat) with
      | none => rfl
      | some m₁ => rfl

theorem copyOut_of_passable (hin : i + n ≤ buffer.length)
    (hall : ∀ j : ℕ, i ≤ j → j < i + n → Passable m (pointer + j)) :
    ∃ m', copyOut pointer buffer n i m = .ok m' := by
  induction n generalizing i m with
  | zero => exact ⟨m, rfl⟩
  | succ n ih =>
      have hi : i < buffer.length := by omega
      rw [copyOut_succ hi]
      cases hwrite : m.WriteMem (pointer + i) buffer[i].toInt with
      | none => exact absurd (hall i le_rfl (by omega)) (writeMem_eq_none_iff.mp hwrite)
      | some r =>
          obtain ⟨-, hkeep⟩ := passable_of_writeMem hwrite
          exact ih (by omega) fun j hij hj => (hkeep _).mpr (hall j (by omega) (by omega))

/-- **How a copy can end**, from a buffer of the kernel. -/
theorem nachosToSystem_of_stops (hbuffer : buffer.length = bufferSize)
    (hstops : Stops pointer size m) :
    nachosToSystem pointer buffer size m = .error .exception := by
  obtain ⟨j, hj, hjsize, hstop⟩ := hstops
  rw [nachosToSystem, if_neg (by omega), if_neg (by omega),
    copyOut_of_stops (Nat.zero_le j) (by omega) (by omega) hstop]
  rfl

theorem nachosToSystem_of_long (hbuffer : buffer.length = bufferSize)
    (hstops : ¬ Stops pointer size m) (hlong : bufferSize < size) :
    nachosToSystem pointer buffer size m = .error .outside := by
  rw [nachosToSystem, if_neg (by omega), if_neg (by omega),
    copyOut_of_long (Nat.zero_le _) (by omega)]
  · rfl
  · intro j _ hj
    by_contra hstop
    exact hstops ⟨j, by omega, by omega, hstop⟩

theorem nachosToSystem_of_short (hbuffer : buffer.length = bufferSize)
    (hstops : ¬ Stops pointer size m) (hshort : size ≤ bufferSize) :
    ∃ r, nachosToSystem pointer buffer size m = .ok r := by
  rw [nachosToSystem]
  split_ifs with hneg hzero
  · exact ⟨_, rfl⟩
  · exact ⟨_, rfl⟩
  · obtain ⟨m', hcopy⟩ := @copyOut_of_passable pointer buffer size.toNat 0 m (by omega)
      fun j _ hj => by
        by_contra hstop
        exact hstops ⟨j, by omega, by omega, hstop⟩
    rw [hcopy]
    exact ⟨_, rfl⟩

theorem nachosToSystem_inside (hbuffer : buffer.length = bufferSize) (hshort : size ≤ bufferSize) :
    nachosToSystem pointer buffer size m ≠ .error .outside := by
  by_cases hstops : Stops pointer size m
  · rw [nachosToSystem_of_stops hbuffer hstops]
    exact nofun
  · obtain ⟨r, hr⟩ := nachosToSystem_of_short hbuffer hstops hshort
    rw [hr]
    exact nofun

end Copy

/-! ## Inside the buffer -/

/-- The call makes no access outside its buffer. -/
def StaysInside (pointer size id : ℤ) (typed : List Byte) (arrives : Option (List Byte))
    (buffer : KernelBuffer) (m : Machine) : Prop :=
  NachOS_Read pointer size id typed arrives buffer m ≠ .error .outside

/-- On the console's input: the word that is typed fits in with its NUL; and an exception other than
a page fault ends the copy before it comes to the end of the buffer, or `size` is not larger than the
buffer and there is a NUL for `strlen`, which without a word is in the buffer by chance. On a
descriptor: no more arrives than the buffer holds, or no more is asked for. -/
def ReadFits (pointer size id : ℤ) (typed : List Byte) (arrives : Option (List Byte))
    (buffer : KernelBuffer) (m : Machine) : Prop :=
  if id = ConsoleInput then
    (word typed).length < bufferSize
      ∧ (Stops pointer size m ∨ (size ≤ bufferSize ∧ (word typed ≠ [] ∨ 0 ∈ buffer.bytes)))
  else if id = ConsoleOutput then True
  else if id = ConsoleError then True
  else ∀ data ∈ arrives, (data.take (toSizeT size)).length ≤ bufferSize

section Inside

variable {pointer size : ℤ} {typed bytes : List Byte} {m : Machine}

/-- The statements behind `scanf`. -/
theorem copy_count_inside_iff (hbuffer : bytes.length = bufferSize) :
    (nachosToSystem pointer bytes size m >>= fun r =>
        strlen bytes >>= fun chars => .ok (⟨r.1, r.2, chars⟩ : Result)) ≠ .error .outside
      ↔ Stops pointer size m ∨ (size ≤ bufferSize ∧ 0 ∈ bytes) := by
  by_cases hstops : Stops pointer size m
  · rw [nachosToSystem_of_stops hbuffer hstops]
    exact iff_of_true nofun (.inl hstops)
  · rw [or_iff_right hstops]
    by_cases hshort : size ≤ bufferSize
    · rw [and_iff_right hshort]
      obtain ⟨r, hr⟩ := nachosToSystem_of_short hbuffer hstops hshort
      rw [hr, strlen]
      split_ifs with hzero
      · exact iff_of_true nofun hzero
      · exact iff_of_false (fun h => h rfl) hzero
    · rw [nachosToSystem_of_long hbuffer hstops (Int.not_le.mp hshort)]
      exact iff_of_false (fun h => h rfl) fun h => hshort h.1

/-- A word that is stored. -/
theorem scanf_of_fits (hword : word typed ≠ []) (hfits : (word typed).length < bytes.length) :
    ∃ rest, scanf typed bytes = .ok (word typed ++ 0 :: rest)
      ∧ (word typed ++ 0 :: rest).length = bytes.length := by
  refine ⟨bytes.drop ((word typed).length + 1), ?_, ?_⟩
  · rw [scanf, if_neg hword, if_pos (Nat.succ_le_of_lt hfits)]
  · rw [List.length_append, List.length_cons, List.length_drop]
    omega

theorem read_input_inside_iff (arrives : Option (List Byte)) (buffer : KernelBuffer) :
    StaysInside pointer size ConsoleInput typed arrives buffer m
      ↔ (word typed).length < bufferSize
        ∧ (Stops pointer size m ∨ (size ≤ bufferSize ∧ (word typed ≠ [] ∨ 0 ∈ buffer.bytes))) := by
  rw [StaysInside, NachOS_Read, if_pos rfl]
  by_cases hword : word typed = []
  · have hscanf : scanf typed buffer.bytes = .ok buffer.bytes := by rw [scanf, if_pos hword]
    have hlen : (word typed).length < bufferSize := by
      rw [hword]
      decide
    rw [hscanf, and_iff_right hlen, or_iff_right (not_not_intro hword)]
    exact copy_count_inside_iff buffer.length_eq
  · by_cases hfits : (word typed).length < bufferSize
    · obtain ⟨rest, hscanf, hlen⟩ := scanf_of_fits hword (hfits.trans_eq buffer.length_eq.symm)
      have hzero : (0 : Byte) ∈ word typed ++ 0 :: rest :=
        List.mem_append_right _ List.mem_cons_self
      rw [hscanf, and_iff_right hfits]
      refine (copy_count_inside_iff (hlen.trans buffer.length_eq)).trans ?_
      simp only [hzero, hword, ne_eq, not_false_eq_true, true_or, and_true]
    · have hscanf : scanf typed buffer.bytes = .error .outside := by
        rw [scanf, if_neg hword, buffer.length_eq, if_neg fun h => hfits (Nat.lt_of_succ_le h)]
      rw [hscanf]
      exact iff_of_false (fun h => h rfl) fun h => hfits h.1

/-- What `recv` has stored can be copied. -/
theorem read_descriptor_inside_iff (arrives : Option (List Byte)) (buffer : KernelBuffer) :
    (recv arrives size buffer.bytes >>= fun received =>
        nachosToSystem pointer received.1 received.2 m >>= fun r =>
          .ok (⟨r.1, received.2, received.2⟩ : Result)) ≠ .error .outside
      ↔ ∀ data ∈ arrives, (data.take (toSizeT size)).length ≤ bufferSize := by
  cases arrives with
  | none => exact iff_of_true nofun nofun
  | some data =>
      simp only [Option.mem_some_iff, forall_eq']
      rw [recv, buffer.length_eq]
      split_ifs with hfits
      · refine iff_of_true (fun h => ?_) hfits
        rcases bind_eq_error_iff.mp h with h | ⟨received, hreceived, h⟩
        · cases h
        · cases hreceived
          rcases bind_eq_error_iff.mp h with h | ⟨r, -, h⟩
          · refine nachosToSystem_inside ?_ (Int.ofNat_le.mpr hfits) h
            rw [List.length_append, List.length_drop, buffer.length_eq]
            omega
          · cases h
      · exact iff_of_false (fun h => h rfl) hfits

/-- **When `Read` stays inside its buffer.** For every value of the size register, every handle,
and everything that is typed or arrives. The buffer has 1024 bytes, and neither `scanf` nor the copy
is told so. -/
theorem staysInside_iff (pointer size id : ℤ) (typed : List Byte) (arrives : Option (List Byte))
    (buffer : KernelBuffer) (m : Machine) :
    StaysInside pointer size id typed arrives buffer m
      ↔ ReadFits pointer size id typed arrives buffer m := by
  rw [ReadFits]
  split_ifs with hinput houtput herror
  · rw [hinput]
    exact read_input_inside_iff arrives buffer
  · rw [StaysInside, NachOS_Read, if_neg hinput, if_pos houtput]
    exact iff_of_true nofun trivial
  · rw [StaysInside, NachOS_Read, if_neg hinput, if_neg houtput, if_pos herror]
    exact iff_of_true nofun trivial
  · rw [StaysInside, NachOS_Read, if_neg hinput, if_neg houtput, if_neg herror]
    exact read_descriptor_inside_iff arrives buffer

/-- A buffer of zeros. -/
def KernelBuffer.zeros : KernelBuffer := ⟨List.replicate bufferSize 0, List.length_replicate⟩

/-- **Two thousand bytes on a descriptor** are received over the end of the buffer. -/
theorem outside_with_two_thousand_bytes :
    ¬ ∀ (pointer size id : ℤ) (typed : List Byte) (arrives : Option (List Byte))
      (buffer : KernelBuffer) (m : Machine),
      StaysInside pointer size id typed arrives buffer m := by
  intro hall
  have hinside := hall 0 2000 3 [] (some (List.replicate 2000 1)) .zeros ⟨fun _ => 0, []⟩
  have hrecv := (read_descriptor_inside_iff _ .zeros).mp hinside _ rfl
  rw [List.take_replicate, List.length_replicate] at hrecv
  exact absurd hrecv (by decide)

end Inside

/-! ## The console -/

/-- **A read is right**: whatever is in the new buffer, the user program has the first characters
that were typed behind the blanks, at most `size` of them, and their number. `mem` is the memory
that the program saw before. -/
def ReadRight (m : Machine) (n : ℕ) (mem : ℕ → Byte) (v : ℕ) (size : ℤ) (typed : List Byte)
    (arrives : Option (List Byte)) : Prop :=
  ∀ buffer : KernelBuffer, ∃ r row, NachOS_Read v size ConsoleInput typed arrives buffer m = .ok r
    ∧ row <+: typed.dropWhile isspace ∧ row.length ≤ size ∧ r.register2 = row.length
    ∧ Sees r.machine n (store mem v row)

/-- **A write is right**: the bytes at the address are printed, and their number is returned. -/
def WriteRight (t : OpenFilesTable) (m : Machine) (mem : ℕ → Byte) (v : ℕ) (size position : ℤ)
    (written : ℤ) : Prop :=
  ∃ m', NachOS_Write t v size ConsoleOutput position written m
    = some (m', size, [.printf (load mem v size.toNat)])

section Right

variable {m : Machine} {n v : ℕ} {mem : ℕ → Byte} {size : ℤ} {typed : List Byte}
  {arrives : Option (List Byte)}

/-- Behind the word comes a blank, or nothing. -/
theorem dropWhile_eq_word_append (typed : List Byte) :
    ∃ rest, typed.dropWhile isspace = word typed ++ rest
      ∧ ∀ c ∈ rest.head?, isspace c = true := by
  refine ⟨(typed.dropWhile isspace).dropWhile (!isspace ·), ?_, fun c hc => ?_⟩
  · exact List.takeWhile_append_dropWhile.symm
  · have hhead := List.head?_dropWhile_not (!isspace ·) (typed.dropWhile isspace)
    rw [Option.mem_def] at hc
    rw [hc] at hhead
    simpa using hhead

/-- Two rows of the same length that are seen at the same place are the same. -/
theorem row_eq_of_sees {m' : Machine} {row row' : List Byte} (hlen : row.length = row'.length)
    (hv : v + row.length ≤ n) (h : Sees m' n (store mem v row))
    (h' : Sees m' n (store mem v row')) : row = row' := by
  apply List.ext_getElem hlen
  intro k hk hk'
  have hbyte := (h.bytes (v + k) (by omega)).symm.trans (h'.bytes (v + k) (by omega))
  rwa [store_add hk, store_add hk'] at hbyte

/-- What a read of a word does: the first `size` bytes of the buffer are copied out. -/
theorem read_word {k : ℕ} (h : Sees m n mem) (hv : v + k ≤ n) (hword : word typed ≠ [])
    (hfits : (word typed).length < bufferSize) (hk : k ≤ bufferSize) (buffer : KernelBuffer) :
    ∃ rest m', (word typed ++ 0 :: rest).length = bufferSize
      ∧ NachOS_Read v k ConsoleInput typed arrives buffer m
        = .ok ⟨m', k, ((word typed ++ 0 :: rest).takeWhile (· ≠ 0)).length⟩
      ∧ Sees m' n (store mem v ((word typed ++ 0 :: rest).take k)) := by
  obtain ⟨rest, hscanf, hlen⟩ := scanf_of_fits hword (hfits.trans_eq buffer.length_eq.symm)
  rw [buffer.length_eq] at hlen
  obtain ⟨m', hcopy, hsees⟩ := h.nachosToSystem (hk.trans_eq hlen.symm) hv
  have hzero : (0 : Byte) ∈ word typed ++ 0 :: rest :=
    List.mem_append_right _ List.mem_cons_self
  refine ⟨rest, m', hlen, ?_, hsees⟩
  rw [NachOS_Read, if_pos rfl, hscanf]
  change (nachosToSystem v (word typed ++ 0 :: rest) k m >>= fun r =>
    strlen (word typed ++ 0 :: rest) >>= fun chars => .ok (⟨r.1, r.2, chars⟩ : Result)) = _
  rw [nachosToSystem_eq (by omega), hcopy, strlen, if_pos hzero]
  rfl

/-- What a read that comes to its end has done. -/
theorem read_eq_ok {pointer : ℤ} {buffer : KernelBuffer} {r : Result}
    (h : NachOS_Read pointer size ConsoleInput typed arrives buffer m = .ok r) :
    ∃ bytes, scanf typed buffer.bytes = .ok bytes ∧ 0 ∈ bytes
      ∧ nachosToSystem pointer bytes size m = .ok (r.machine, r.register2) := by
  rw [NachOS_Read, if_pos rfl] at h
  obtain ⟨bytes, hscanf, h⟩ := bind_eq_ok_iff.mp h
  obtain ⟨copied, hcopy, h⟩ := bind_eq_ok_iff.mp h
  obtain ⟨chars, hstrlen, h⟩ := bind_eq_ok_iff.mp h
  cases h
  refine ⟨bytes, hscanf, ?_, hcopy⟩
  rw [strlen] at hstrlen
  split_ifs at hstrlen with hzero
  exact hzero

/-- There is a word, and it fits in. -/
theorem ReadRight.word (hright : ReadRight m n mem v size typed arrives) :
    Console.word typed ≠ [] ∧ (Console.word typed).length < bufferSize := by
  -- the new buffer has no NUL
  obtain ⟨r, row, hread, -⟩ := hright ⟨List.replicate bufferSize 1, List.length_replicate⟩
  obtain ⟨bytes, hscanf, hzero, -⟩ := read_eq_ok hread
  rw [scanf] at hscanf
  split_ifs at hscanf with hword hfits
  · cases hscanf
    exact absurd (List.eq_of_mem_replicate hzero) (by decide)
  · rw [List.length_replicate] at hfits
    exact ⟨hword, Nat.lt_of_succ_le hfits⟩

/-- No more is copied than the buffer holds. -/
theorem ReadRight.size_le_bufferSize (hright : ReadRight m n mem v size typed arrives) :
    size ≤ bufferSize := by
  obtain ⟨r, row, hread, -⟩ := hright .zeros
  have hinside : StaysInside v size ConsoleInput typed arrives .zeros m := by
    rw [StaysInside, hread]
    exact nofun
  obtain ⟨bytes, hscanf, -, hcopy⟩ := read_eq_ok hread
  obtain ⟨hword, hfits⟩ := hright.word
  obtain ⟨rest, hscanf', hlen⟩ :=
    scanf_of_fits hword (hfits.trans_eq KernelBuffer.zeros.length_eq.symm)
  rw [hscanf'] at hscanf
  cases hscanf
  rcases ((read_input_inside_iff arrives .zeros).mp hinside).2 with hstops | ⟨hshort, -⟩
  · rw [nachosToSystem_of_stops (hlen.trans KernelBuffer.zeros.length_eq) hstops] at hcopy
    cases hcopy
  · exact hshort

/-- And no more than the word. -/
theorem ReadRight.size_le (h : Sees m n mem) (hv : v + size ≤ n)
    (hright : ReadRight m n mem v size typed arrives) :
    0 ≤ size ∧ size ≤ (Console.word typed).length := by
  obtain ⟨hword, hfits⟩ := hright.word
  have hshort := hright.size_le_bufferSize
  obtain ⟨r, row, hread, hprefix, hle, hcount, hsees⟩ := hright .zeros
  have hpos : 0 ≤ size := by omega
  refine ⟨hpos, ?_⟩
  obtain ⟨k, rfl⟩ := Int.eq_ofNat_of_zero_le hpos
  by_contra hlong
  obtain ⟨rest, m', hlen, hread', hsees'⟩ := @read_word m n v mem typed arrives k h (by omega)
    hword hfits (Int.ofNat_le.mp hshort) .zeros
  rw [hread'] at hread
  cases hread
  have hrow : row = (Console.word typed ++ 0 :: rest).take k := by
    refine row_eq_of_sees ?_ ?_ hsees hsees'
    · rw [List.length_take]
      have := Int.ofNat_inj.mp hcount
      omega
    · have := Int.ofNat_inj.mp hcount
      omega
  -- the NUL of `scanf` is copied, and it was not typed
  obtain ⟨behind, hsplit, hblank⟩ := dropWhile_eq_word_append typed
  rw [hrow, hsplit, List.take_append, List.take_of_length_le (by omega),
    List.prefix_append_right_inj] at hprefix
  obtain ⟨j, hj⟩ := Nat.exists_eq_succ_of_ne_zero (n := k - (Console.word typed).length) (by omega)
  rw [hj, List.take_succ_cons] at hprefix
  obtain ⟨tail, htail⟩ := hprefix
  have hnul : isspace 0 = true := hblank 0 (by rw [← htail]; rfl)
  exact absurd hnul (by decide)

/-- **When a read is right.** -/
theorem readRight_iff (h : Sees m n mem) (hv : v + size ≤ n) :
    ReadRight m n mem v size typed arrives
      ↔ (Console.word typed ≠ [] ∧ (Console.word typed).length < bufferSize)
        ∧ 0 ≤ size ∧ size ≤ (Console.word typed).length := by
  constructor
  · exact fun hright => ⟨hright.word, hright.size_le h hv⟩
  · rintro ⟨⟨hword, hfits⟩, hpos, hle⟩ buffer
    obtain ⟨k, rfl⟩ := Int.eq_ofNat_of_zero_le hpos
    obtain ⟨rest, m', hlen, hread, hsees⟩ := @read_word m n v mem typed arrives k h (by omega)
      hword hfits (by omega) buffer
    rw [List.take_append_of_le_length (Int.ofNat_le.mp hle)] at hsees
    obtain ⟨behind, hsplit, -⟩ := dropWhile_eq_word_append typed
    have hlen : ((Console.word typed).take k).length = k :=
      List.length_take_of_le (Int.ofNat_le.mp hle)
    refine ⟨_, (Console.word typed).take k, hread, ?_, ?_, ?_, hsees⟩
    · rw [hsplit]
      exact (List.take_prefix _ _).trans (List.prefix_append _ _)
    · rw [hlen]
    · rw [hlen]

/-- What `printf` prints of a row behind which there is a NUL. -/
theorem takeWhile_append_nul_iff (row : List Byte) :
    (row ++ [0]).takeWhile (· ≠ 0) = row ↔ 0 ∉ row := by
  constructor
  · intro h hzero
    rw [← h] at hzero
    have := List.mem_takeWhile_imp hzero
    simp at this
  · intro hzero
    rw [List.takeWhile_append_of_pos]
    · simp
    · intro c hc
      simp only [ne_eq, decide_eq_true_eq]
      rintro rfl
      exact hzero hc

/-- **When a write is right**: no byte of it is a NUL. -/
theorem writeRight_iff (h : Sees m n mem) (hpos : 0 ≤ size) (hv : v + size ≤ n)
    (t : OpenFilesTable) (position written : ℤ) :
    WriteRight t m mem v size position written ↔ 0 ∉ load mem v size.toNat := by
  obtain ⟨k, rfl⟩ := Int.eq_ofNat_of_zero_le hpos
  obtain ⟨m', hread, -⟩ := h.systemToNachos (by omega : v + k ≤ n)
  have hwrite : NachOS_Write t v k ConsoleOutput position written m
      = some (m', (((load mem v k ++ [0]).takeWhile (· ≠ 0)).length : ℤ),
        [.printf ((load mem v k ++ [0]).takeWhile (· ≠ 0))]) := by
    rw [NachOS_Write, hread]
    rfl
  rw [WriteRight, hwrite, Int.toNat_natCast, ← takeWhile_append_nul_iff]
  constructor
  · rintro ⟨m₁, heq⟩
    simp only [Option.some.injEq, Prod.mk.injEq, List.cons.injEq, HostCall.printf.injEq,
      and_true] at heq
    exact heq.2.2
  · intro heq
    refine ⟨m', ?_⟩
    rw [heq, length_load]

/-- **When the console calls are right.** For every size, every text that is typed, and every
buffer of the user program that is in its memory. `Read` copies out `size` bytes, however many were
typed. -/
theorem console_iff (h : Sees m n mem) (hv : v + size ≤ n) (typed : List Byte)
    (arrives : Option (List Byte)) (t : OpenFilesTable) (position written : ℤ) :
    (ReadRight m n mem v size typed arrives
        ↔ (Console.word typed ≠ [] ∧ (Console.word typed).length < bufferSize)
          ∧ 0 ≤ size ∧ size ≤ (Console.word typed).length)
      ∧ (0 ≤ size → (WriteRight t m mem v size position written
        ↔ 0 ∉ load mem v size.toNat)) :=
  ⟨readRight_iff h hv, fun hpos => writeRight_iff h hpos hv t position written⟩

end Right

/-- A program of one page, with the same byte everywhere. -/
def sevens : Machine := ⟨fun _ => 7, [⟨0, 0, true, false, false, false⟩]⟩

theorem sees_sevens : Sees sevens 4096 fun _ => 7 :=
  ⟨⟨by decide, by decide, by decide⟩, by decide, fun _ _ => rfl⟩

/-- `hi` is typed, and two characters are read; and two bytes are written. -/
theorem console_of_two :
    ReadRight sevens 4096 (fun _ => 7) 100 2 [104, 105, 10] none
      ∧ WriteRight (.initial fun _ => 0) sevens (fun _ => 7) 100 2 0 0 := by
  obtain ⟨hread, hwrite⟩ := console_iff sees_sevens (by decide : (100 : ℕ) + (2 : ℤ) ≤ 4096)
    [104, 105, 10] none (.initial fun _ => 0) 0 0
  exact ⟨hread.mpr (by decide), (hwrite (by decide)).mpr (by decide)⟩

/-- **One character more than was typed**: the NUL is copied as well, and counted. -/
theorem not_readRight_of_three :
    ¬ ∀ (m : Machine) (n : ℕ) (mem : ℕ → Byte) (v : ℕ) (size : ℤ) (typed : List Byte)
      (arrives : Option (List Byte)) (t : OpenFilesTable) (position written : ℤ),
      Sees m n mem → v + size ≤ n → ReadRight m n mem v size typed arrives
        ∧ (0 ≤ size → WriteRight t m mem v size position written) := by
  intro hall
  have hv : (100 : ℕ) + (3 : ℤ) ≤ (4096 : ℕ) := by decide
  have hright := (hall _ _ _ 100 3 [104, 105, 10] none (.initial fun _ => 0) 0 0
    sees_sevens hv).1
  exact absurd (hright.size_le sees_sevens hv).2 (by decide)

end Console

end LoadBalancer.NachOS
