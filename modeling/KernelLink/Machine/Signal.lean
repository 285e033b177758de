/-!
# Signals

The numbers and names of signals, and what one does to a process that has made no arrangements for
it.

Main definitions:
* `Signal`, `Signal.ofName?`, `Signal.endsProcess`.
-/
namespace KernelLink.Machine

/-- The number of a signal. -/
abbrev Signal := Nat

namespace Signal

/-- The terminal is gone. -/
def hangUp : Signal := 1

/-- A user interrupts. -/
def interrupt : Signal := 2

/-- A user asks for an end. -/
def leave : Signal := 3

/-- End at once; nothing can be arranged for it. -/
def kill : Signal := 9

/-- Nobody reads what is written. -/
def brokenPipe : Signal := 13

/-- Please end. -/
def terminate : Signal := 15

/-- The names of the signals, by their numbers. -/
def names : List (String × Signal) :=
  [("HUP", 1), ("INT", 2), ("QUIT", 3), ("ILL", 4), ("TRAP", 5), ("ABRT", 6), ("BUS", 7),
    ("FPE", 8), ("KILL", 9), ("USR1", 10), ("SEGV", 11), ("USR2", 12), ("PIPE", 13), ("ALRM", 14),
    ("TERM", 15), ("STKFLT", 16), ("CHLD", 17), ("CONT", 18), ("STOP", 19), ("TSTP", 20),
    ("TTIN", 21), ("TTOU", 22), ("URG", 23), ("XCPU", 24), ("XFSZ", 25), ("VTALRM", 26),
    ("PROF", 27), ("WINCH", 28), ("IO", 29), ("PWR", 30), ("SYS", 31)]

/-- The signal of a name, in letters of either case, or of a number. -/
def ofName? (text : String) : Option Signal :=
  match text.toNat? with
  | some n => if n < 65 then some n else none
  | none => names.lookup (String.ofList (text.toList.map Char.toUpper))

/-- The name of a signal; those without a name go by their number. -/
def name (s : Signal) : String :=
  match names.find? (·.2 == s) with
  | some (name, _) => name
  | none => toString s

/-- Does a signal end a process that has made no arrangements? -/
def endsProcess (s : Signal) : Bool := !([0, 17, 18, 19, 20, 21, 22, 23, 28].contains s)

/-- What is said of a command that a signal ended. -/
def farewells : List (Signal × String) :=
  [(1, "Hangup"), (3, "Quit"), (4, "Illegal instruction"), (5, "Trace/breakpoint trap"),
    (6, "Aborted"), (7, "Bus error"), (8, "Floating point exception"), (9, "Killed"),
    (10, "User defined signal 1"), (11, "Segmentation fault"), (12, "User defined signal 2"),
    (14, "Alarm clock"), (15, "Terminated"), (16, "Stack fault"), (24, "CPU time limit exceeded"),
    (25, "File size limit exceeded"), (26, "Virtual timer expired"),
    (27, "Profiling timer expired"), (29, "I/O possible"), (30, "Power failure"),
    (31, "Bad system call")]

/-- What a shell says of a command that a signal ended. Interrupts and broken pipes need no
words. -/
def farewell (s : Signal) : Option String := farewells.lookup s

end Signal
end KernelLink.Machine
