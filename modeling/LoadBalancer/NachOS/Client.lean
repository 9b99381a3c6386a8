/-
The download of `client.c`, over `Read` and `Write` (`exception.cc`).

The client reads the first 1024 bytes of an answer, looks for the `CRLFCRLF` in them, and writes
what is behind it to the file, at position 0. What is left of the answer goes the same way, 1024
bytes at a time, at a position that the client adds up in an `int`. Every byte passes through the
memory of the program: `Read` stores it there and `Write` loads it again.

[`Running`] is what all of this does to the stream and to the file, without the page table and the
descriptors. The file is the body as long as the position stays an `int`, and no longer
([`download_exact_iff`]).
-/
import LoadBalancer.Texto
import LoadBalancer.Lib.Loop
import LoadBalancer.NachOS.SystemCalls
import LoadBalancer.NachOS.ClientStrings

set_option autoImplicit false

namespace LoadBalancer.NachOS

open LoadBalancer.Memory LoadBalancer.Loop

/-! ## The host -/

/-- What the host has for the client: a connection, with the bytes that have not been received,
and the output file, with the position in it. The standard output is the console. -/
structure Host where
  socketFD : ℤ
  stream : List Byte
  fileFD : ℤ
  contents : List Byte
  offset : ℕ
  console : List Byte

namespace Host

/-- `recv` with `MSG_WAITALL`: `size` bytes, or what is left of the stream. -/
def recv (fd size : ℤ) (h : Host) : Option (List Byte × Host) :=
  if fd = h.socketFD then
    some (h.stream.take size.toNat, { h with stream := h.stream.drop size.toNat })
  else none

/-- The file after `write` of all of `data`: a position behind the end leaves a hole of NULs. -/
def written (contents data : List Byte) (offset : ℕ) : List Byte :=
  contents.take offset ++ List.replicate (offset - contents.length) 0 ++ data
    ++ contents.drop (offset + data.length)

/-- What the other calls do. `lseek` to a negative position fails, and the client makes no calls
but these. -/
def serve (h : Host) : SystemCalls.HostCall → Option Host
  | .lseek fd position =>
      if fd = h.fileFD then
        some { h with offset := if 0 ≤ position then position.toNat else h.offset }
      else none
  | .write fd data =>
      if fd = h.fileFD then
        some { h with
               contents := written h.contents data h.offset
               offset := h.offset + data.length }
      else none
  | .printf text => some { h with console := h.console ++ text }
  | _ => none

/-- Writing at the end. -/
theorem written_length (contents data : List Byte) :
    written contents data contents.length = contents ++ data := by
  have hbehind : contents.drop (contents.length + data.length) = [] :=
    List.drop_of_length_le (Nat.le_add_right _ _)
  rw [written, List.take_length, Nat.sub_self, List.replicate_zero, List.append_nil, hbehind,
    List.append_nil]

end Host

/-! ## The system calls -/

/-- The machine, the table of open files, and the host. -/
structure World where
  machine : Machine
  table : OpenFilesTable
  host : Host

namespace World

open SystemCalls

/-- `Write`: register 2, and what is afterwards. The host writes all that it is given. -/
def Write (pointer size id position : ℤ) (w : World) : Option (ℤ × World) :=
  (w.machine.systemToNachos pointer size).bind fun (buffer, machine) =>
    (NachOS_Write w.table pointer size id position buffer size).bind fun (written, calls) =>
      (calls.foldlM Host.serve w.host).map fun host =>
        (written, { w with machine := machine, host := host })

/-- `Read` from a socket. The array of the kernel has 1024 bytes. -/
def Read (pointer size id : ℤ) (w : World) : Option (ℤ × World) :=
  (NachOS_Read w.table pointer size id).bind fun
    | [.recv handle size] =>
        (w.host.recv handle size).bind fun (buffer, host) =>
          if buffer.length ≤ 1024 then
            (w.machine.nachosToSystem pointer buffer buffer.length).map fun (machine, _) =>
              (buffer.length, { w with machine := machine, host := host })
          else none
    -- the client has read from the console before
    | _ => none

/-- `Create` and `Open` of the output file: it is empty, and register 2 is its handle. -/
def createAndOpen (w : World) : Option (ℤ × World) :=
  (OpenFilesTable.NachOS_Open w.host.fileFD w.table).map fun (table, fd) =>
    (fd, { w with table := table, host := { w.host with contents := [], offset := 0 } })

/-- `Close`. -/
def Close (handle : ℤ) (w : World) : Option World :=
  (OpenFilesTable.NachOS_Close handle w.table).map fun (table, _) => { w with table := table }

/-- `Write` of a text of the program to the console. -/
def print (text : List Byte) (w : World) : World :=
  { w with host := { w.host with console := w.host.console ++ text } }

/-- A function of the program on its memory. -/
def find (str : ℤ) (splitter : List Byte) (limit : ℕ) (w : World) : Option (ℤ × World) :=
  (Client.find str splitter limit w.machine).map fun (i, machine) => (i, { w with machine := machine })

def clear (buffer : ℤ) (size : ℕ) (w : World) : Option World :=
  (Client.clear buffer size w.machine).map fun machine => { w with machine := machine }

end World

/-! ## `main`, from the answer on -/

namespace Client

/-- `BUFFER_SIZE`. -/
def BUFFER_SIZE : ℕ := 1024

/-- The characters of a text of the program. -/
def ascii (s : String) : List Byte := s.toList.map fun c => BitVec.ofNat 8 c.toNat

/-- `"\r\n\r\n"`. -/
def doubleCRLF : List Byte := [13, 10, 13, 10]

/-- The sum of two `int`s, which has to be one. -/
def add (a b : ℤ) : Option ℤ :=
  if INT32_MIN ≤ a + b ∧ a + b ≤ INT32_MAX then some (a + b) else none

/-- Positions and sizes add up to an `int` or to too much. -/
theorem add_natCast (a b : ℕ) :
    add a b = if ((a + b : ℕ) : ℤ) ≤ INT32_MAX then some ((a + b : ℕ) : ℤ) else none := by
  have hmin : INT32_MIN ≤ ((a + b : ℕ) : ℤ) := by
    have hvalue : INT32_MIN = -2147483648 := rfl
    omega
  rw [add, ← Int.natCast_add]
  exact if_congr (and_iff_right hmin) rfl rfl

/-- The variables that keep their values: the address of the array, and what was asked for. -/
structure Choices where
  buffer_response : ℕ
  socket : ℤ
  shouldWriteToDisk : Bool
  showHeaders : Bool

/-- The variables of the loop. -/
structure Download where
  world : World
  fd : ℤ
  isFilePrintable : ℤ
  errNotFound : ℤ
  filePos : ℤ

/-- `newLine`. -/
def newLine (w : World) : World := w.print (ascii "\n")

/-- A part of the memory goes to the console, under a condition. -/
def display (condition : Prop) [Decidable condition] (pointer size : ℤ) (w : World) :
    Option World :=
  if condition then (w.Write pointer size SystemCalls.ConsoleOutput 0).map Prod.snd else some w

/-- And to the file. -/
def save (c : Choices) (pointer size fd position : ℤ) (w : World) : Option World :=
  if c.shouldWriteToDisk then (w.Write pointer size fd position).map Prod.snd else some w

/-- The output file is opened, if there is to be one. -/
def openFile (c : Choices) (w : World) : Option (ℤ × World) :=
  if c.shouldWriteToDisk then w.createAndOpen else some (-1, w)

/-- The headers, if they are to be seen. -/
def displayHeaders (c : Choices) (split_pos isFilePrintable errNotFound : ℤ) (w : World) :
    Option World :=
  (display c.showHeaders c.buffer_response split_pos w).map fun w =>
    if c.showHeaders ∧ (isFilePrintable > 0 ∨ errNotFound > 0) then newLine (newLine w) else w

/-- What is behind the headers in the first block. `split_pos` is the position of the body. -/
def firstBlock (c : Choices) (split_pos split_size isFilePrintable errNotFound fd : ℤ)
    (w : World) : Option Download :=
  (display (isFilePrintable > 0) (c.buffer_response + split_pos) split_size w).bind fun w =>
    (save c (c.buffer_response + split_pos) split_size fd 0 w).bind fun w =>
      let w := if isFilePrintable < 1 ∧ ¬ c.shouldWriteToDisk ∧ errNotFound < 1 then
          w.print (ascii "\nImposible imprimir datos binarios, solo documentos de texto.\n")
        else w
      (if c.shouldWriteToDisk then add 0 split_size else some 0).map fun filePos =>
        ⟨w, fd, isFilePrintable, errNotFound, filePos⟩

/-- `main` up to the loop, from the first read on. It ends before the loop without a `CRLFCRLF`,
or a file to write to. -/
def start (c : Choices) (w : World) : Option (Except World Download) :=
  (w.Read c.buffer_response BUFFER_SIZE c.socket).bind fun (bytesfromHeader, w) =>
    (w.find c.buffer_response doubleCRLF BUFFER_SIZE).bind fun (split_pos, w) =>
      if split_pos = -1 then
        let w := w.print
          (ascii "\nError al leer el encabezado, abortando maquina nach0S. \n\n")
        (display True c.buffer_response BUFFER_SIZE w).map .error
      else
        (openFile c (newLine w)).bind fun (fd, w) =>
          if c.shouldWriteToDisk ∧ -1 = fd then some (.error w)
          else
            (w.find c.buffer_response (ascii "Content-Type: text/") BUFFER_SIZE).bind
              fun (isFilePrintable, w) =>
                (w.find c.buffer_response (ascii "404") BUFFER_SIZE).bind fun (errNotFound, w) =>
                  (displayHeaders c split_pos isFilePrintable errNotFound w).bind fun w =>
                    (firstBlock c (split_pos + 4) (bytesfromHeader - (split_pos + 4))
                      isFilePrintable errNotFound fd w).map .ok

/-- A turn of the loop. -/
def turn (c : Choices) (d : Download) (_ : Unit) : Option (Download × Bool) :=
  (d.world.Read c.buffer_response BUFFER_SIZE c.socket).bind fun (readBytes, w) =>
    if readBytes > 0 then
      (display (d.isFilePrintable > 0 ∨ d.errNotFound > 0) c.buffer_response readBytes w).bind
        fun w =>
          (save c c.buffer_response readBytes d.fd d.filePos w).bind fun w =>
            (w.clear c.buffer_response BUFFER_SIZE).bind fun w =>
              (add d.filePos readBytes).map fun filePos =>
                ({ d with world := w, filePos := filePos }, false)
    else some ({ d with world := w }, true)

/-- Behind the loop. -/
def finish (c : Choices) (d : Download) : Option World :=
  (if c.shouldWriteToDisk then
    (d.world.print (ascii "\n\nSe descargo el archivo en la carpeta ./files \n")).Close d.fd
  else some d.world).map newLine

/-- The program comes to its end with `file` in the output file. -/
def Downloaded (c : Choices) (w : World) (file : List Byte) : Prop :=
  ∃ d turns d' w', start c w = some (.ok d) ∧ StopsAfter (turn c) d (fun _ => ()) turns d'
    ∧ finish c d' = some w' ∧ w'.host.contents = file

/-! ## What the client is at -/

/-- The handle is none of the console's. -/
structure NoConsole (handle : ℤ) : Prop where
  input : handle ≠ SystemCalls.ConsoleInput
  output : handle ≠ SystemCalls.ConsoleOutput
  error : handle ≠ SystemCalls.ConsoleError

/-- The handle is a file or a connection, and its entry in the table is the descriptor. -/
structure Opened (t : OpenFilesTable) (handle unixFD : ℤ) : Prop where
  noConsole : NoConsole handle
  entry : t.getUnixHandle handle = some unixFD

/-- The next handle is a file's, and it is not the socket. -/
structure CanOpen (c : Choices) (t : OpenFilesTable) : Prop where
  inside : OpenFilesTable.Inside t.usage
  noConsole : NoConsole t.usage
  distinct : t.usage ≠ c.socket

/-- The client with the memory `mem` of `n` bytes, `stream` to come from the connection and, once
the file is open, its handle and what it holds. There is a NUL behind the array. -/
structure Running (c : Choices) (n : ℕ) (mem : ℕ → Byte) (stream : List Byte)
    (file : Option (ℤ × List Byte)) (w : World) : Prop where
  sees : Sees w.machine n mem
  nul : ∃ v, c.buffer_response + BUFFER_SIZE ≤ v ∧ v < n ∧ mem v = 0
  stream : w.host.stream = stream
  socket : Opened w.table c.socket w.host.socketFD
  opens : file = none → CanOpen c w.table
  file : ∀ fd contents, file = some (fd, contents) →
    w.host.contents = contents ∧ Opened w.table fd w.host.fileFD

namespace Running

variable {c : Choices} {n : ℕ} {mem : ℕ → Byte} {stream : List Byte}
  {file : Option (ℤ × List Byte)} {w : World}

theorem room (h : Running c n mem stream file w) : c.buffer_response + BUFFER_SIZE ≤ n := by
  obtain ⟨v, hle, hlt, -⟩ := h.nul
  omega

/-- The array begins a text. -/
theorem text (h : Running c n mem stream file w) : ∃ k, TextAt n mem c.buffer_response k := by
  obtain ⟨v, hle, hlt, hnul⟩ := h.nul
  exact exists_textAt (by omega) hlt hnul

/-- The NUL behind the array stays when something is stored in the array. -/
theorem nul_store (h : Running c n mem stream file w) {row : List Byte}
    (hrow : row.length ≤ BUFFER_SIZE) :
    ∃ v, c.buffer_response + BUFFER_SIZE ≤ v ∧ v < n
      ∧ store mem c.buffer_response row v = 0 := by
  obtain ⟨v, hle, hlt, hnul⟩ := h.nul
  exact ⟨v, hle, hlt, by rw [store_of_le (by omega), hnul]⟩

theorem print (h : Running c n mem stream file w) (text : List Byte) :
    Running c n mem stream file (w.print text) :=
  ⟨h.sees, h.nul, h.stream, h.socket, h.opens, h.file⟩

/-- The program reads its memory. -/
theorem find (h : Running c n mem stream file w) {a k : ℕ} (ht : TextAt n mem a k)
    {splitter : List Byte} (hne : splitter ≠ []) (limit : ℕ) :
    ∃ w', w.find a splitter limit
        = some (position 0 limit (Search.find splitter (load mem a k)), w')
      ∧ Running c n mem stream file w' := by
  obtain ⟨m', hfind, hm'⟩ := h.sees.find ht hne limit
  refine ⟨{ w with machine := m' }, ?_, hm', h.nul, h.stream, h.socket, h.opens, h.file⟩
  rw [World.find, hfind, Option.map_some]

theorem clear (h : Running c n mem stream file w) :
    ∃ w', w.clear c.buffer_response BUFFER_SIZE = some w'
      ∧ Running c n (store mem c.buffer_response (List.replicate BUFFER_SIZE 0)) stream file w' := by
  obtain ⟨m', hclear, hm'⟩ := h.sees.clear h.room
  refine ⟨{ w with machine := m' }, ?_, hm', h.nul_store (by rw [List.length_replicate]), h.stream,
    h.socket, h.opens, h.file⟩
  rw [World.clear, hclear, Option.map_some]

/-- **`Read` brings the next block of the stream into the array.** -/
theorem read (h : Running c n mem stream file w) :
    ∃ w', w.Read c.buffer_response BUFFER_SIZE c.socket
        = some (((stream.take BUFFER_SIZE).length : ℤ), w')
      ∧ Running c n (store mem c.buffer_response (stream.take BUFFER_SIZE))
          (stream.drop BUFFER_SIZE) file w' := by
  obtain ⟨⟨hinput, houtput, herror⟩, hentry⟩ := h.socket
  have hlen : (stream.take BUFFER_SIZE).length ≤ BUFFER_SIZE := List.length_take_le _ _
  have hroom := h.room
  obtain ⟨m', hcopy, hm'⟩ := h.sees.nachosToSystem (v := c.buffer_response)
    (Nat.le_refl (stream.take BUFFER_SIZE).length) (by omega)
  rw [List.take_length] at hm'
  refine ⟨⟨m', w.table, { w.host with stream := stream.drop BUFFER_SIZE }⟩, ?_, hm',
    h.nul_store hlen, rfl, h.socket, h.opens, h.file⟩
  rw [World.Read, SystemCalls.NachOS_Read, if_neg hinput, if_neg houtput, if_neg herror, hentry,
    Option.map_some, Option.bind_some]
  dsimp only
  rw [Host.recv, if_pos rfl, Option.bind_some, Int.toNat_natCast, h.stream]
  dsimp only
  rw [if_pos (show (stream.take BUFFER_SIZE).length ≤ 1024 from hlen), hcopy, Option.map_some]

/-- What goes to the console leaves the rest as it is. -/
theorem display (h : Running c n mem stream file w) (condition : Prop) [Decidable condition]
    {a k : ℕ} (ha : a + k ≤ n) :
    ∃ w', Client.display condition a k w = some w' ∧ Running c n mem stream file w' := by
  unfold Client.display
  split
  · obtain ⟨m', hcopy, hm'⟩ := h.sees.systemToNachos ha
    refine ⟨⟨m', w.table, { w.host with console := w.host.console
      ++ (load mem a k ++ [0]).takeWhile (· ≠ 0) }⟩, ?_, hm', h.nul, h.stream, h.socket, h.opens, h.file⟩
    rw [World.Write, hcopy, Option.bind_some]
    rfl
  · exact ⟨w, rfl, h⟩

/-- **`Write` at the end of the file puts a row of the memory behind it.** -/
theorem save {fd : ℤ} {contents : List Byte}
    (h : Running c n mem stream (some (fd, contents)) w) (hdisk : c.shouldWriteToDisk = true)
    {a k : ℕ} (ha : a + k ≤ n) :
    ∃ w', Client.save c a k fd contents.length w = some w'
      ∧ Running c n mem stream (some (fd, contents ++ load mem a k)) w' := by
  obtain ⟨hcontents, hopened⟩ := h.file fd contents rfl
  obtain ⟨⟨hinput, houtput, herror⟩, hentry⟩ := hopened
  obtain ⟨m', hcopy, hm'⟩ := h.sees.systemToNachos ha
  have htake : (load mem a k ++ [0]).take k = load mem a k :=
    List.take_left' (length_load mem a k)
  refine ⟨⟨m', w.table, { w.host with
    contents := contents ++ load mem a k
    offset := contents.length + (load mem a k).length }⟩, ?_, hm', h.nul, h.stream, h.socket,
      nofun, ?_⟩
  · have hserve : [SystemCalls.HostCall.lseek w.host.fileFD contents.length,
          .write w.host.fileFD (load mem a k)].foldlM Host.serve w.host
        = some { w.host with
            contents := contents ++ load mem a k
            offset := contents.length + (load mem a k).length } := by
      have hpos : (0 : ℤ) ≤ contents.length := Int.natCast_nonneg _
      simp only [List.foldlM_cons, List.foldlM_nil, Host.serve, if_true, if_pos hpos,
        Int.toNat_natCast, hcontents, Host.written_length, Option.pure_def, Option.bind_eq_bind,
        Option.bind_some]
    rw [Client.save, if_pos hdisk, World.Write, hcopy, Option.bind_some]
    dsimp only
    rw [SystemCalls.NachOS_Write, if_neg hinput, if_neg houtput, if_neg herror, hentry,
      Option.map_some, Option.bind_some, Int.toNat_natCast, htake]
    dsimp only
    rw [hserve, Option.map_some, Option.map_some]
  · rintro fd' contents' heq
    cases heq
    exact ⟨rfl, ⟨hinput, houtput, herror⟩, hentry⟩

/-- The file that is opened is empty. -/
theorem createAndOpen (h : Running c n mem stream none w) :
    ∃ fd w', w.createAndOpen = some (fd, w') ∧ 0 ≤ fd
      ∧ Running c n mem stream (some (fd, [])) w' := by
  obtain ⟨hin, hconsole, hne⟩ := h.opens rfl
  obtain ⟨table, htable⟩ : ∃ table : OpenFilesTable, table =
      { openFiles := Function.update w.table.openFiles w.table.usage.toNat w.host.fileFD
        openFilesMap := w.table.openFilesMap.mark w.table.usage.toNat
        usage := w.table.usage + 1 } := ⟨_, rfl⟩
  have hopen := OpenFilesTable.Open_eq w.host.fileFD w.table
  rw [if_pos hin, ← htable] at hopen
  have hentry : ∀ handle, table.getUnixHandle handle
      = if handle = w.table.usage then some w.host.fileFD else w.table.getUnixHandle handle :=
    OpenFilesTable.getUnixHandle_update hin (by rw [htable])
  refine ⟨w.table.usage, ⟨w.machine, table.addThread, { w.host with contents := [], offset := 0 }⟩,
    ?_, hin.1, h.sees, h.nul, h.stream, ⟨h.socket.noConsole, ?_⟩, nofun, ?_⟩
  · rw [World.createAndOpen, OpenFilesTable.NachOS_Open, hopen, Option.map_some, Option.map_some]
  · exact ((hentry c.socket).trans (if_neg (Ne.symm hne))).trans h.socket.entry
  · rintro fd contents heq
    cases heq
    exact ⟨rfl, hconsole, (hentry _).trans (if_pos rfl)⟩

end Running

/-! ## The loop -/

section Loop

variable {c : Choices} {n : ℕ} {mem : ℕ → Byte} {stream contents : List Byte} {d : Download}

/-- **A turn puts the next block behind the file**, and the position has to stay an `int`. -/
theorem turn_block (h : Running c n mem stream (some (d.fd, contents)) d.world)
    (hdisk : c.shouldWriteToDisk = true) (hpos : d.filePos = contents.length)
    (hne : stream ≠ []) :
    ∃ mem' w', turn c d ()
        = (if ((contents.length + (stream.take BUFFER_SIZE).length : ℕ) : ℤ) ≤ INT32_MAX then
            some ({ d with
                    world := w'
                    filePos := (contents.length + (stream.take BUFFER_SIZE).length : ℕ) }, false)
          else none)
      ∧ Running c n mem' (stream.drop BUFFER_SIZE)
          (some (d.fd, contents ++ stream.take BUFFER_SIZE)) w' := by
  have hlen : (stream.take BUFFER_SIZE).length ≤ BUFFER_SIZE := List.length_take_le _ _
  have hread0 : 0 < (stream.take BUFFER_SIZE).length := by
    have hbuf : BUFFER_SIZE = 1024 := rfl
    have hstream := List.length_pos_iff.mpr hne
    rw [List.length_take]
    omega
  have hroom := h.room
  obtain ⟨w₁, hread, h₁⟩ := h.read
  obtain ⟨w₂, hdisplay, h₂⟩ := h₁.display (d.isFilePrintable > 0 ∨ d.errNotFound > 0)
    (show c.buffer_response + (stream.take BUFFER_SIZE).length ≤ n by omega)
  obtain ⟨w₃, hsave, h₃⟩ := h₂.save hdisk
    (show c.buffer_response + (stream.take BUFFER_SIZE).length ≤ n by omega)
  rw [load_store] at h₃
  obtain ⟨w₄, hclear, h₄⟩ := h₃.clear
  refine ⟨_, w₄, ?_, h₄⟩
  rw [turn, hread, Option.bind_some]
  dsimp only
  rw [if_pos (by omega), hdisplay, Option.bind_some, hpos, hsave, Option.bind_some, hclear,
    Option.bind_some, add_natCast]
  split
  · rw [Option.map_some]
  · rw [Option.map_none]

/-- At the end of the stream the loop stops. -/
theorem turn_end (h : Running c n mem [] (some (d.fd, contents)) d.world) :
    ∃ mem' w', turn c d () = some ({ d with world := w' }, true)
      ∧ Running c n mem' [] (some (d.fd, contents)) w' := by
  obtain ⟨w', hread, h'⟩ := h.read
  refine ⟨_, w', ?_, h'⟩
  rw [turn, hread, Option.bind_some]
  rfl

end Loop

/-! ## An answer -/

/-- An answer whose header block, the status line and the headers with the `CRLFCRLF` behind them,
has no NUL and is in the first block; and any body. -/
structure Response where
  head : List Byte
  body : List Byte
  head_no_nul : 0 ∉ head
  ends : Search.find doubleCRLF (head ++ doubleCRLF) = some head.length
  fits : (head ++ doubleCRLF).length ≤ BUFFER_SIZE

namespace Response

/-- The header block. -/
def header (r : Response) : List Byte := r.head ++ doubleCRLF

/-- The bytes of the answer. -/
def bytes (r : Response) : List Byte := r.header ++ r.body

/-- The part of the first block that is left for the body. -/
def firstSize (r : Response) : ℕ := BUFFER_SIZE - r.header.length

theorem length_header (r : Response) : r.header.length = r.head.length + 4 := List.length_append

theorem header_length_le (r : Response) : r.header.length ≤ BUFFER_SIZE := r.fits

/-- The first block. -/
theorem bytes_take (r : Response) :
    r.bytes.take BUFFER_SIZE = r.header ++ r.body.take r.firstSize := by
  rw [bytes, List.take_append, List.take_of_length_le r.header_length_le]
  rfl

/-- What it leaves. -/
theorem bytes_drop (r : Response) : r.bytes.drop BUFFER_SIZE = r.body.drop r.firstSize := by
  rw [bytes, List.drop_append, List.drop_of_length_le r.header_length_le, List.nil_append]
  rfl

theorem nul_notMem_header (r : Response) : 0 ∉ r.header := by
  rw [header, List.mem_append]
  rintro (h | h)
  · exact r.head_no_nul h
  · exact absurd h (by decide)

variable {n k a : ℕ} {mem : ℕ → Byte} {row : List Byte}

/-- The text that begins with the header block is not shorter. -/
theorem header_isPrefix (r : Response)
    (ht : TextAt n (store mem a (r.header ++ row)) a k) :
    r.header <+: load (store mem a (r.header ++ row)) a k := by
  have hle : r.header.length ≤ k := by
    by_contra hlt
    have hk : k < r.header.length := Nat.not_le.mp hlt
    have hrow : k < (r.header ++ row).length := by
      rw [List.length_append]
      omega
    have hnul := ht.ends
    rw [store_add hrow, List.getElem_append_left hk] at hnul
    exact r.nul_notMem_header (hnul ▸ List.getElem_mem hk)
  obtain ⟨x, rfl⟩ := Nat.exists_eq_add_of_le hle
  have htake := load_take (store mem a (r.header ++ row)) a r.header.length x
  rw [load_store_append_left] at htake
  exact (List.prefix_iff_eq_take).mpr htake.symm

/-- **The client finds the end of the header block.** -/
theorem position_header (r : Response) (ht : TextAt n (store mem a (r.header ++ row)) a k) :
    position 0 BUFFER_SIZE
        (Search.find doubleCRLF (load (store mem a (r.header ++ row)) a k)) = r.head.length := by
  obtain ⟨behind, hbehind⟩ := r.header_isPrefix ht
  have hlt : r.head.length < BUFFER_SIZE := by
    have := r.header_length_le
    rw [r.length_header] at this
    omega
  have hends : Search.find doubleCRLF r.header = some r.head.length := r.ends
  rw [← hbehind, Search.find_append_of_eq_some hends, position, if_pos hlt, Nat.zero_add]

end Response

/-! ## Up to the loop -/

section Start

variable {c : Choices} {n k pos size : ℕ} {mem : ℕ → Byte} {stream row : List Byte}
  {file : Option (ℤ × List Byte)} {w : World} {fd : ℤ}

theorem Running.newLine (h : Running c n mem stream file w) :
    Running c n mem stream file (newLine w) := h.print _

theorem displayHeaders_eq (h : Running c n mem stream file w) (hpos : pos ≤ BUFFER_SIZE)
    (isFilePrintable errNotFound : ℤ) :
    ∃ w', displayHeaders c pos isFilePrintable errNotFound w = some w'
      ∧ Running c n mem stream file w' := by
  have hroom := h.room
  obtain ⟨w₁, hdisplay, h₁⟩ := h.display (c.showHeaders = true)
    (show c.buffer_response + pos ≤ n by omega)
  refine ⟨_, by rw [displayHeaders, hdisplay, Option.map_some], ?_⟩
  split
  · exact h₁.newLine.newLine
  · exact h₁

/-- What is behind the headers is the beginning of the file. -/
theorem firstBlock_eq (h : Running c n mem stream (some (fd, [])) w)
    (hdisk : c.shouldWriteToDisk = true) (hfits : pos + size ≤ BUFFER_SIZE)
    (isFilePrintable errNotFound : ℤ) :
    ∃ d, firstBlock c pos size isFilePrintable errNotFound fd w = some d
      ∧ d.fd = fd ∧ d.filePos = size
      ∧ Running c n mem stream (some (fd, load mem (c.buffer_response + pos) size)) d.world := by
  have hroom := h.room
  obtain ⟨w₁, hdisplay, h₁⟩ := h.display (isFilePrintable > 0)
    (show c.buffer_response + pos + size ≤ n by omega)
  obtain ⟨w₂, hsave, h₂⟩ := h₁.save hdisk (show c.buffer_response + pos + size ≤ n by omega)
  have hadd : add 0 size = some (size : ℤ) := by
    have hbuf : BUFFER_SIZE = 1024 := rfl
    have hmax : ((0 + size : ℕ) : ℤ) ≤ INT32_MAX := by
      have hvalue : INT32_MAX = 2147483647 := rfl
      omega
    have hsum := add_natCast 0 size
    rwa [if_pos hmax, Nat.zero_add] at hsum
  have hno : ¬ (isFilePrintable < 1 ∧ ¬ c.shouldWriteToDisk = true ∧ errNotFound < 1) :=
    fun hand => hand.2.1 hdisk
  rw [Int.natCast_add] at hdisplay hsave
  refine ⟨⟨w₂, fd, isFilePrintable, errNotFound, size⟩, ?_, rfl, rfl, h₂⟩
  rw [List.length_nil, Int.natCast_zero] at hsave
  rw [firstBlock, hdisplay, Option.bind_some, hsave, Option.bind_some, if_pos hdisk, hadd,
    Option.map_some, if_neg hno]

/-- **The first block**: the client cuts it behind the header block, and what is left of it is in
the file. -/
theorem start_eq (r : Response) (h : Running c n mem r.bytes none w)
    (hdisk : c.shouldWriteToDisk = true) :
    ∃ mem' d, start c w = some (.ok d)
      ∧ d.filePos = ((r.body.take r.firstSize).length : ℤ)
      ∧ Running c n mem' (r.body.drop r.firstSize) (some (d.fd, r.body.take r.firstSize)) d.world := by
  obtain ⟨w₁, hread, h₁⟩ := h.read
  rw [r.bytes_take] at hread h₁
  rw [r.bytes_drop] at h₁
  generalize hrow : r.body.take r.firstSize = row at hread h₁ ⊢
  obtain ⟨k, ht⟩ := h₁.text
  obtain ⟨w₂, hfind, h₂⟩ := h₁.find ht (show doubleCRLF ≠ [] by decide) BUFFER_SIZE
  rw [r.position_header ht] at hfind
  obtain ⟨fd, w₃, hopen, hfd, h₃⟩ := h₂.newLine.createAndOpen
  obtain ⟨w₄, htype, h₄⟩ := h₃.find ht (show ascii "Content-Type: text/" ≠ [] by simp [ascii]) BUFFER_SIZE
  obtain ⟨w₅, hnotFound, h₅⟩ := h₄.find ht (show ascii "404" ≠ [] by simp [ascii]) BUFFER_SIZE
  generalize position 0 BUFFER_SIZE (Search.find (ascii "Content-Type: text/") _) = isFilePrintable
    at htype
  generalize position 0 BUFFER_SIZE (Search.find (ascii "404") _) = errNotFound at hnotFound
  have hheader := r.header_length_le
  have hlength := r.length_header
  have hsize : r.header.length + row.length ≤ BUFFER_SIZE := by
    rw [← hrow, List.length_take, Response.firstSize]
    omega
  obtain ⟨w₆, hheaders, h₆⟩ := displayHeaders_eq h₅
    (show r.head.length ≤ BUFFER_SIZE by omega) isFilePrintable errNotFound
  obtain ⟨d, hfirst, hdfd, hpos, h₇⟩ := firstBlock_eq h₆ hdisk hsize isFilePrintable errNotFound
  -- the row behind the header block is what has been received of the body
  rw [load_store_append_right] at h₇
  refine ⟨_, d, ?_, hpos, hdfd ▸ h₇⟩
  have hcut : (r.head.length : ℤ) + 4 = (r.header.length : ℤ) := by omega
  have hrest : (((r.header ++ row).length : ℕ) : ℤ) - (r.header.length : ℤ) = (row.length : ℤ) := by
    rw [List.length_append]
    omega
  have hfound : ¬ (r.head.length : ℤ) = -1 := by omega
  have hhandle : ¬ (c.shouldWriteToDisk = true ∧ -1 = fd) := by omega
  rw [start, hread, Option.bind_some]
  dsimp only
  rw [hfind, Option.bind_some]
  dsimp only
  rw [if_neg hfound, openFile, if_pos hdisk, hopen, Option.bind_some]
  dsimp only
  rw [if_neg hhandle, htype, Option.bind_some]
  dsimp only
  rw [hnotFound, Option.bind_some]
  dsimp only
  rw [hheaders, Option.bind_some, hcut, hrest, hfirst, Option.map_some]

end Start

/-! ## The download -/

/-- The client at its first read, with the answer to come. The stack of a program begins 16 bytes
below the end of its memory, and what is above it is as the loader left it. -/
structure Ready (c : Choices) (r : Response) (w : World) : Prop where
  memory : ∃ n mem, Sees w.machine n mem ∧ c.buffer_response + BUFFER_SIZE ≤ n - 16
    ∧ ∀ v, n - 16 ≤ v → v < n → mem v = 0
  connected : Opened w.table c.socket w.host.socketFD
  answer : w.host.stream = r.bytes
  opens : CanOpen c w.table

theorem Ready.running {c : Choices} {r : Response} {w : World} (h : Ready c r w) :
    ∃ n mem, Running c n mem r.bytes none w := by
  obtain ⟨n, mem, hsees, hroom, hzero⟩ := h.memory
  have hbuf : BUFFER_SIZE = 1024 := rfl
  refine ⟨n, mem, hsees, ⟨n - 1, by omega, by omega, hzero (n - 1) (by omega) (by omega)⟩,
    h.answer, h.connected, fun _ => h.opens, nofun⟩

section Download

variable {c : Choices} {r : Response} {n k : ℕ} {d : Download}

/-- The client before turn `k` of the loop. -/
def Before (c : Choices) (r : Response) (n k : ℕ) (d : Download) : Prop :=
  d.filePos = ((r.body.take (r.firstSize + BUFFER_SIZE * k)).length : ℤ)
    ∧ ∃ mem, Running c n mem (r.body.drop (r.firstSize + BUFFER_SIZE * k))
        (some (d.fd, r.body.take (r.firstSize + BUFFER_SIZE * k))) d.world

/-- A turn with something left of the body. -/
theorem Before.turn (h : Before c r n k d) (hdisk : c.shouldWriteToDisk = true)
    (hmore : r.firstSize + BUFFER_SIZE * k < r.body.length) :
    ∃ d', turn c d ()
        = (if ((r.body.take (r.firstSize + BUFFER_SIZE * (k + 1))).length : ℤ) ≤ INT32_MAX then
            some (d', false) else none)
      ∧ Before c r n (k + 1) d' := by
  obtain ⟨hpos, mem, hrun⟩ := h
  have hne : r.body.drop (r.firstSize + BUFFER_SIZE * k) ≠ [] := by
    rw [Ne, List.drop_eq_nil_iff]
    omega
  have hnext : r.firstSize + BUFFER_SIZE * (k + 1)
      = r.firstSize + BUFFER_SIZE * k + BUFFER_SIZE := by
    rw [Nat.mul_succ, Nat.add_assoc]
  have htake : r.body.take (r.firstSize + BUFFER_SIZE * k)
        ++ (r.body.drop (r.firstSize + BUFFER_SIZE * k)).take BUFFER_SIZE
      = r.body.take (r.firstSize + BUFFER_SIZE * (k + 1)) := by
    rw [hnext]
    exact List.take_add.symm
  obtain ⟨mem', w', hturn, hrun'⟩ := turn_block hrun hdisk hpos hne
  rw [List.drop_drop, ← hnext, htake] at hrun'
  rw [← List.length_append, htake] at hturn
  exact ⟨_, hturn, rfl, mem', hrun'⟩

/-- It goes on while the position is an `int`. -/
theorem Before.turn_continues (h : Before c r n k d) (hdisk : c.shouldWriteToDisk = true)
    (hmore : r.firstSize + BUFFER_SIZE * k < r.body.length)
    (hmax : ((r.body.take (r.firstSize + BUFFER_SIZE * (k + 1))).length : ℤ) ≤ INT32_MAX) :
    ∃ d', Client.turn c d () = some (d', false) ∧ Before c r n (k + 1) d' := by
  obtain ⟨d', hturn, hd'⟩ := h.turn hdisk hmore
  exact ⟨d', hturn.trans (if_pos hmax), hd'⟩

/-- And has no result when it is not. -/
theorem Before.turn_overflow (h : Before c r n k d) (hdisk : c.shouldWriteToDisk = true)
    (hmore : r.firstSize + BUFFER_SIZE * k < r.body.length)
    (hmax : ¬ ((r.body.take (r.firstSize + BUFFER_SIZE * (k + 1))).length : ℤ) ≤ INT32_MAX) :
    Client.turn c d () = none := by
  obtain ⟨d', hturn, -⟩ := h.turn hdisk hmore
  exact hturn.trans (if_neg hmax)

/-- The turn at the end of the body. -/
theorem Before.turn_end (h : Before c r n k d)
    (hend : r.body.length ≤ r.firstSize + BUFFER_SIZE * k) :
    ∃ d', Client.turn c d () = some (d', true)
      ∧ ∃ mem, Running c n mem [] (some (d'.fd, r.body)) d'.world := by
  obtain ⟨-, mem, hrun⟩ := h
  rw [List.drop_of_length_le hend, List.take_of_length_le hend] at hrun
  obtain ⟨mem', w', hturn, hrun'⟩ := Client.turn_end hrun
  exact ⟨_, hturn, mem', hrun'⟩

/-- Behind the loop the file stays as it is. -/
theorem finish_eq {mem : ℕ → Byte} {stream contents : List Byte}
    (h : Running c n mem stream (some (d.fd, contents)) d.world)
    (hdisk : c.shouldWriteToDisk = true) :
    ∃ w', finish c d = some w' ∧ w'.host.contents = contents := by
  obtain ⟨hcontents, hopened⟩ := h.file d.fd contents rfl
  have hclose : OpenFilesTable.NachOS_Close d.fd d.world.table
      = some (d.world.table.delThread, d.world.host.fileFD) := by
    rw [OpenFilesTable.NachOS_Close, hopened.entry, Option.map_some]
  rw [finish, if_pos hdisk, World.Close, World.print, ← hcontents]
  dsimp only
  rw [hclose, Option.map_some, Option.map_some]
  exact ⟨_, rfl, rfl⟩

theorem Response.firstSize_le (r : Response) : r.firstSize ≤ BUFFER_SIZE := Nat.sub_le _ _

theorem start_before {w : World} (h : Ready c r w) (hdisk : c.shouldWriteToDisk = true) :
    ∃ n d, start c w = some (.ok d) ∧ Before c r n 0 d := by
  obtain ⟨n, mem, hrun⟩ := h.running
  obtain ⟨mem', d, hstart, hpos, hrun'⟩ := start_eq r hrun hdisk
  refine ⟨n, d, hstart, ?_⟩
  rw [Before, Nat.mul_zero, Nat.add_zero]
  exact ⟨hpos, mem', hrun'⟩

/-- **The loop ends with the body in the file** when the position stays an `int`. -/
theorem downloaded_of_le {w : World} (h : Ready c r w) (hdisk : c.shouldWriteToDisk = true)
    (hsmall : (r.body.length : ℤ) ≤ INT32_MAX) : Downloaded c w r.body := by
  obtain ⟨n, d, hstart, hzero⟩ := start_before h hdisk
  have hbuf : BUFFER_SIZE = 1024 := rfl
  -- the first turn that finds nothing left
  obtain ⟨K, hK⟩ : ∃ K, K = (r.body.length - r.firstSize + 1023) / 1024 := ⟨_, rfl⟩
  have hgo : ∀ k < K, ∀ s, Before c r n k s →
      ∃ s', turn c s () = some (s', false) ∧ Before c r n (k + 1) s' := by
    intro k hk s hs
    apply hs.turn_continues hdisk (by rw [hbuf]; omega)
    rw [List.length_take]
    omega
  have hend : ∀ s, Before c r n K s → ∃ s', turn c s () = some (s', true)
      ∧ ∃ mem, Running c n mem [] (some (s'.fd, r.body)) s'.world :=
    fun s hs => hs.turn_end (by rw [hbuf]; omega)
  obtain ⟨d', hstop, mem, hrun⟩ : ∃ d', StopsAfter (turn c) d (fun _ => ()) (K + 1) d'
      ∧ ∃ mem, Running c n mem [] (some (d'.fd, r.body)) d'.world :=
    stops_of_invariant hzero hgo hend
  obtain ⟨w', hfinish, hcontents⟩ := finish_eq hrun hdisk
  exact ⟨d, K + 1, d', w', hstart, hstop, hfinish, hcontents⟩

/-- A longer body takes the position out of the range of `int`, and the loop has no result. -/
theorem not_downloaded_of_lt {w : World} (h : Ready c r w) (hdisk : c.shouldWriteToDisk = true)
    (hlarge : INT32_MAX < r.body.length) (file : List Byte) : ¬ Downloaded c w file := by
  rintro ⟨d₁, turns, d', w', hstart', hstop, -, -⟩
  obtain ⟨n, d, hstart, hzero⟩ := start_before h hdisk
  rw [hstart] at hstart'
  cases hstart'
  have hbuf : BUFFER_SIZE = 1024 := rfl
  have hvalue : INT32_MAX = 2147483647 := rfl
  have hfirst := r.firstSize_le
  -- the turn that adds the block with which the position is too large
  obtain ⟨K, hK⟩ : ∃ K, K = (2147483647 - r.firstSize) / 1024 := ⟨_, rfl⟩
  have hgo : ∀ k < K, ∀ s, Before c r n k s →
      ∃ s', turn c s () = some (s', false) ∧ Before c r n (k + 1) s' := by
    intro k hk s hs
    apply hs.turn_continues hdisk (by rw [hbuf]; omega)
    rw [List.length_take, hbuf]
    omega
  have hnone : ∀ s, Before c r n K s → turn c s () = none := by
    intro s hs
    apply hs.turn_overflow hdisk (by rw [hbuf]; omega)
    rw [List.length_take, hbuf]
    omega
  exact not_terminates_of_invariant hzero hgo hnone ⟨turns, d', hstop⟩

end Download

/-! ## The result -/

/-- **The downloaded file is the body of the answer**: for every answer, whatever its body holds
and wherever the array is, exactly when the length of the body is an `int`. -/
theorem download_exact_iff {c : Choices} {r : Response} {w : World} (h : Ready c r w)
    (hdisk : c.shouldWriteToDisk = true) :
    Downloaded c w r.body ↔ (r.body.length : ℤ) ≤ INT32_MAX := by
  constructor
  · intro hdown
    by_contra hlarge
    exact not_downloaded_of_lt h hdisk (Int.not_le.mp hlarge) r.body hdown
  · exact downloaded_of_le h hdisk

/-- An answer `H`, with a body. -/
def answer (body : List Byte) : Response where
  head := [72]
  body := body
  head_no_nul := by decide
  ends := by decide
  fits := by decide

/-- A client that downloads, with its array at the beginning of the memory. -/
def downloading : Choices := ⟨0, 3, true, false⟩

/-- A table with one socket. -/
def oneSocket : OpenFilesTable where
  openFiles := Function.update (fun _ => -1) 3 3
  openFilesMap := (((BitMap.initial.mark 0).mark 1).mark 2).mark 3
  usage := 4

/-- A program with one page and one socket. -/
def onePage (stream : List Byte) : World where
  machine := ⟨fun _ => 0, [⟨0, 0, true, false, false, false⟩]⟩
  table := oneSocket
  host := ⟨3, stream, 5, [], 0, []⟩

theorem ready_onePage (r : Response) : Ready downloading r (onePage r.bytes) where
  memory := by
    have hmem : ∀ e ∈ (onePage r.bytes).machine.pageTable, e = ⟨0, 0, true, false, false, false⟩ :=
      fun e he => List.mem_singleton.mp he
    refine ⟨PageSize, fun _ => 0, ⟨⟨fun e he => ?_, fun e he => ?_, ?_⟩, Nat.one_mul PageSize,
      fun v hv => rfl⟩, ?_,
      fun v _ _ => rfl⟩
    · rw [hmem e he]
      exact ⟨rfl, rfl⟩
    · rw [hmem e he]
      decide
    · exact List.nodup_singleton _
    · decide
  connected := ⟨⟨by decide, by decide, by decide⟩, rfl⟩
  answer := rfl
  opens :=
    have hopens : CanOpen downloading oneSocket :=
      ⟨⟨by decide, by decide⟩, ⟨by decide, by decide, by decide⟩, by decide⟩
    hopens

/-- A body of 3000 bytes, which takes more than one read, is downloaded. -/
theorem download_exact_several_reads :
    Downloaded downloading (onePage (answer (List.replicate 3000 65)).bytes)
      (List.replicate 3000 65) := by
  refine (download_exact_iff (ready_onePage (answer (List.replicate 3000 65))) rfl).mpr ?_
  rw [answer, List.length_replicate]
  decide

/-- **A body of more than `2^32` bytes is not downloaded.** -/
theorem not_download_large :
    ¬ ∀ (c : Choices) (r : Response) (w : World), Ready c r w → c.shouldWriteToDisk = true →
      Downloaded c w r.body := by
  intro hall
  have hlarge : INT32_MAX < ((answer (List.replicate 4294971392 65)).body.length : ℤ) := by
    have hvalue : INT32_MAX = 2147483647 := rfl
    rw [answer, List.length_replicate]
    omega
  exact not_downloaded_of_lt (ready_onePage _) rfl hlarge _
    (hall downloading (answer (List.replicate 4294971392 65)) _ (ready_onePage _) rfl)

end Client

end LoadBalancer.NachOS
