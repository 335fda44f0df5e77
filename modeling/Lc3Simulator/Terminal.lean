import Lc3Simulator.InputDelivery

/-!
# The terminal

The functions of `terminal.c`, `set_blocking` and `set_nonblock` of `util.c`, and the rest of
`device_io_impl.c`, whose reading is in `InputDelivery`. Before a program of the LC-3 runs, the
descriptors are made nonblocking and the terminal is made to hand over every character at once and
to show none; afterwards both are put back.

What the kernel does is a parameter: a `Kernel` answers each system call, from a state of its own.
The program keeps two things outside of it: the settings it has saved, and how many times it has
asked for them to be put back on exit.

Of `errno`, which `init_terminal` takes care to leave as it was, only what `read` and `write` put
there is looked at.

## Main definitions

* `Termios`, `Kernel` — the settings of a terminal, and the system calls
* `Terminal` — the state of the kernel and the two things the program keeps
* `initTerminal`, `resetTerminal` — the functions of `terminal.c`
* `createDeviceIoImpl` — the `struct device_io` of two descriptors
* `exitHandlers` — what is left to do when the program exits
-/

namespace Lc3Simulator

/-- A file descriptor. -/
abbrev Fd := ℕ

/-- The macros of `<fcntl.h>` and `<termios.h>` that the program uses, and how many handlers
`atexit` takes. -/
structure Platform where
  oNonblock : BitVec 32
  echo : BitVec 32
  icanon : BitVec 32
  vmin : ℕ
  vtime : ℕ
  atexitMax : ℕ

/-- `struct termios`: `c_lflag`, `c_cc` and the rest of it. -/
@[ext]
structure Termios (τ : Type) where
  lflag : BitVec 32
  cc : ℕ → Byte
  rest : τ

/-- What `write(outfd, &c, 1)` does. -/
inductive WriteResult
  | one
  | zero
  | failed (errno : Errno)
  deriving DecidableEq, Repr

/-- `errno == EAGAIN || errno == EWOULDBLOCK`, after a failure. -/
def WriteResult.again : WriteResult → Bool
  | .failed errno => errno = .eagain ∨ errno = .ewouldblock
  | .one | .zero => false

/-- The system calls. `none`, and `false`, stand for a result below zero. `tcgetattr` and
`tcsetattr` are those on the standard input, with `TCSAFLUSH`, and `isatty` says whether that is a
terminal. `patience` bounds how often a `write` is asked again. -/
structure Kernel (τ κ : Type) where
  platform : Platform
  isatty : Bool
  getfl : Fd → κ → Option (BitVec 32) × κ
  setfl : Fd → BitVec 32 → κ → Bool × κ
  tcgetattr : κ → Option (Termios τ) × κ
  tcsetattr : Termios τ → κ → Bool × κ
  read : Fd → κ → ReadResult × κ
  write : Fd → Byte → κ → WriteResult × κ
  patience : κ → ℕ

/-- The kernel, `saved_termios`, and the number of times that `termios_atexit` is registered. -/
structure Terminal (τ κ : Type) where
  kernel : κ
  savedTermios : Termios τ
  handlers : ℕ

variable {τ κ : Type} (k : Kernel τ κ)

/-! ### `util.c` -/

/-- The status of a descriptor is read, and set to what `change` makes of it. -/
def changeStatus (change : BitVec 32 → BitVec 32) (fd : Fd) (s : κ) : Option (BitVec 32) × κ :=
  match k.getfl fd s with
  | (none, s) => (none, s)
  | (some oldStatus, s) =>
    match k.setfl fd (change oldStatus) s with
    | (false, s) => (none, s)
    | (true, s) => (some oldStatus, s)

/-- `set_blocking`. -/
def setBlocking : Fd → κ → Option (BitVec 32) × κ :=
  changeStatus k fun oldStatus => oldStatus &&& ~~~k.platform.oNonblock

/-- `set_nonblock`. -/
def setNonblock : Fd → κ → Option (BitVec 32) × κ :=
  changeStatus k fun oldStatus => oldStatus ||| k.platform.oNonblock

/-! ### `terminal.c` -/

/-- `termios_atexit`. -/
def termiosAtexit (s : Terminal τ κ) : Terminal τ κ :=
  { s with kernel := (k.tcsetattr s.savedTermios s.kernel).2 }

/-- `reset_terminal`. -/
def resetTerminal (s : Terminal τ κ) : Terminal τ κ := termiosAtexit k s

/-- The settings that `init_terminal` asks for. -/
def Platform.raw (p : Platform) (buf : Termios τ) : Termios τ :=
  { buf with
    lflag := buf.lflag &&& ~~~(p.echo ||| p.icanon)
    cc := Function.update (Function.update buf.cc p.vmin 1) p.vtime 0 }

/-- The test at the end of `init_terminal`: not all of it was done. -/
def Platform.refused (p : Platform) (buf : Termios τ) : Bool :=
  buf.lflag &&& (p.echo ||| p.icanon) ≠ 0 ∨ buf.cc p.vmin ≠ 1 ∨ buf.cc p.vtime ≠ 0

/-- `atexit(termios_atexit)`. -/
def atexitTermios (s : Terminal τ κ) : Terminal τ κ :=
  if s.handlers < k.platform.atexitMax then { s with handlers := s.handlers + 1 } else s

/-- The rest of `init_terminal`, when the settings are saved in `buf`. -/
def initSaved (buf : Termios τ) (s : Terminal τ κ) : ℤ × Terminal τ κ :=
  match k.tcsetattr (k.platform.raw buf) s.kernel with
  | (false, kernel) => (-1, { s with kernel })
  | (true, kernel) =>
    match k.tcgetattr kernel with
    | (none, kernel) => (-1, resetTerminal k { s with kernel })
    | (some buf, kernel) =>
      if k.platform.refused buf then (-1, resetTerminal k { s with kernel })
      else (0, atexitTermios k { s with kernel })

/-- `init_terminal`. -/
def initTerminal (s : Terminal τ κ) : ℤ × Terminal τ κ :=
  if k.isatty then
    match k.tcgetattr s.kernel with
    | (none, kernel) => (-1, { s with kernel })
    | (some buf, kernel) => initSaved k buf { s with kernel, savedTermios := buf }
  else (0, s)

/-! ### `device_io_impl.c` -/

/-- `struct device_io_impl_data`. -/
structure DeviceIoImplData where
  infd : Fd
  outfd : Fd

variable (data : DeviceIoImplData)

/-- `fcntl(fd, F_SETFL, status)`, the result of which is not looked at. -/
def putStatus (fd : Fd) (status : BitVec 32) (s : Terminal τ κ) : Terminal τ κ :=
  { s with kernel := (k.setfl fd status s.kernel).2 }

/-- `io_impl_start`. -/
def ioImplStart (s : Terminal τ κ) : ℤ × Terminal τ κ :=
  match setNonblock k data.infd s.kernel with
  | (none, kernel) => (-1, { s with kernel })
  | (some infdOldStatus, kernel) =>
    match setNonblock k data.outfd kernel with
    | (none, kernel) => (-1, putStatus k data.infd infdOldStatus { s with kernel })
    | (some outfdOldStatus, kernel) =>
      let (status, s) := initTerminal k { s with kernel }
      if status < 0 then
        (-1, putStatus k data.infd infdOldStatus (putStatus k data.outfd outfdOldStatus s))
      else (0, s)

/-- `io_impl_end`. -/
def ioImplEnd (s : Terminal τ κ) : ℤ × Terminal τ κ :=
  match setBlocking k data.infd s.kernel with
  | (none, kernel) => (-1, { s with kernel })
  | (some infdOldStatus, kernel) =>
    match setBlocking k data.outfd kernel with
    | (none, kernel) => (-1, putStatus k data.infd infdOldStatus { s with kernel })
    | (some _, kernel) => (0, resetTerminal k { s with kernel })

/-- `io_impl_write_char`, if fewer than `n` calls of `write` are enough. -/
def ioImplWriteChar (c : Byte) : ℕ → κ → Option (ℤ × κ)
  | 0, _ => none
  | n + 1, s =>
    match k.write data.outfd c s with
    | (.one, s) => some (1, s)
    | (.zero, s) => ioImplWriteChar c n s
    | (.failed errno, s) =>
      if (WriteResult.failed errno).again then ioImplWriteChar c n s else some (-1, s)

/-- The descriptors of `device_io_impl.c`. -/
def implDescriptors : Descriptors (Terminal τ κ) where
  read s :=
    let (result, kernel) := k.read data.infd s.kernel
    (result, { s with kernel })
  writeChar c s :=
    match ioImplWriteChar k data c (k.patience s.kernel + 1) s.kernel with
    | some (_, kernel) => { s with kernel }
    | none => s
  ioStart := ioImplStart k data
  ioEnd := ioImplEnd k data

/-- `create_device_io_impl`. The variable for the character holds `c` before it is read to. -/
def createDeviceIoImpl (c : Byte) : DeviceIo (Terminal τ κ) := ioImpl (implDescriptors k data) c

/-- The handlers that run when the program exits. -/
def exitHandlers (s : Terminal τ κ) : Terminal τ κ := (termiosAtexit k)^[s.handlers] s

end Lc3Simulator
