import HealthRelay.Text.Decimal

/-!
# Errors of the operating system

The words and the number under which messages show an error of the operating system.
-/

namespace HealthRelay

structure OsError where
  number : Nat
deriving DecidableEq, Repr

namespace OsError

/-- The numbers that files and connections meet, and their words. -/
def known : List (Nat × String) :=
  [(1, "Operation not permitted"), (2, "No such file or directory"), (4, "Interrupted system call"),
   (5, "Input/output error"), (11, "Resource temporarily unavailable"),
   (12, "Cannot allocate memory"), (13, "Permission denied"), (20, "Not a directory"),
   (21, "Is a directory"), (22, "Invalid argument"), (23, "Too many open files in system"),
   (24, "Too many open files"), (32, "Broken pipe"), (36, "File name too long"),
   (40, "Too many levels of symbolic links"), (97, "Address family not supported by protocol"),
   (98, "Address already in use"), (99, "Cannot assign requested address"),
   (100, "Network is down"), (101, "Network is unreachable"),
   (103, "Software caused connection abort"), (104, "Connection reset by peer"),
   (105, "No buffer space available"), (110, "Connection timed out"), (111, "Connection refused"),
   (112, "Host is down"), (113, "No route to host")]

def words (e : OsError) : String :=
  (known.lookup e.number).getD ("Unknown error " ++ Text.decimalText e.number)

def text (e : OsError) : String :=
  e.words ++ " (os error " ++ Text.decimalText e.number ++ ")"

end OsError

end HealthRelay
