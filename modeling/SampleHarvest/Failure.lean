import SampleHarvest.Text.Decimal

/-!
# Failures

All that can make an operation fail: the file system, the ledger file, a text that cannot be read,
two releases with the same file, the settings, something missing, or a validation program that
cannot run.

A failure has a category, a message, and the causes below it, each with a message of its own. A run
that failed only for the moment may be tried again.
-/

namespace SampleHarvest

/-- How an operation on files can fail outside the rules of a disk. -/
inductive TransferFault where
  | other
  | missing
  | timedOut
  | interrupted
  | wouldBlock
  deriving DecidableEq, Repr

/-- Why the file system refuses an operation. -/
inductive DiskFault where
  | missing
  | occupied
  | notFolder
  | isFolder
  | nameTooLong
  /-- The file may not be used in this way. -/
  | denied
  | tooManyLinks
  /-- The path holds a character that no name can hold. -/
  | nulInName
  | notText
  | transfer (fault : TransferFault) (reason : Text)
  deriving DecidableEq, Repr

namespace DiskFault

/-- Why an operation is refused, in words. -/
def reason : DiskFault → Text
  | missing => "No such file or directory"
  | occupied => "File exists"
  | notFolder => "Not a directory"
  | isFolder => "Is a directory"
  | nameTooLong => "File name too long"
  | denied => "Permission denied"
  | tooManyLinks => "Too many levels of symbolic links"
  | nulInName => "file name contained an unexpected NUL byte"
  | notText => "stream did not contain valid UTF-8"
  | transfer _ reason => reason

def number? : DiskFault → Option Nat
  | missing => some 2
  | occupied => some 17
  | notFolder => some 20
  | isFolder => some 21
  | nameTooLong => some 36
  | denied => some 13
  | tooManyLinks => some 40
  | _ => none

/-- What is said about a fault. -/
def message (fault : DiskFault) : Text :=
  match fault.number? with
  | some number => fault.reason ++ " (os error " ++ Text.ofNat number ++ ")"
  | none => fault.reason

/-- Whether the operation may succeed when it is tried again. -/
def isPassing : DiskFault → Bool
  | transfer .timedOut _ => true
  | transfer .interrupted _ => true
  | transfer .wouldBlock _ => true
  | _ => false

end DiskFault

/-- Why the ledger file refuses an operation. -/
inductive LedgerFault where
  | busy (reason : Text)
  | locked (reason : Text)
  | full (reason : Text)
  | cannotOpen (path : Text)
  | notLedger
  /-- The path holds a character that no name can hold, at this byte. -/
  | nulByte (position : Nat)
  | unknownHost (host : Text)
  | unknownKeeper (name : Text)
  /-- A parameter of the address, of which `kind` tells, has a value without a meaning. -/
  | unknownMode (kind value : Text)
  /-- The address asks for more access than it did before. -/
  | forbiddenMode (value : Text)
  | readOnly
  | unreadable
  /-- The file whose permissions are to be used is missing. -/
  | noModel
  deriving DecidableEq, Repr

namespace LedgerFault

/-- What is said about a fault. -/
def message : LedgerFault → Text
  | busy reason => reason
  | locked reason => reason
  | full reason => reason
  | cannotOpen path => "unable to open database file: " ++ path
  | notLedger => "file is not a database"
  | nulByte position => "nul byte found in provided data at position: " ++ Text.ofNat position
  | unknownHost host => "invalid uri authority: " ++ host
  | unknownKeeper name => "no such vfs: " ++ name
  | unknownMode kind value => "no such " ++ kind ++ " mode: " ++ value
  | forbiddenMode value => "access mode not allowed: " ++ value
  | readOnly => "attempt to write a readonly database"
  | unreadable => "disk I/O error"
  | noModel => "disk I/O error"

/-- What is said about the cause of a fault. -/
def cause (fault : LedgerFault) : Text :=
  match fault with
  | busy _ => "Error code 5: The database file is locked"
  | locked _ => "Error code 6: A table in the database is locked"
  | full _ => "Error code 13: Insertion failed because database is full"
  | cannotOpen _ => "Error code 14: Unable to open the database file"
  | notLedger => "Error code 26: File opened that is not a database file"
  | nulByte _ => fault.message
  | unknownHost _ => "Error code 1: SQL error or missing database"
  | unknownKeeper _ => "Error code 1: SQL error or missing database"
  | unknownMode _ _ => "Error code 1: SQL error or missing database"
  | forbiddenMode _ => "Error code 3: Access permission denied"
  | readOnly => "Error code 8: Attempt to write a readonly database"
  | unreadable => "Error code 266: Error reading from disk"
  | noModel => "Error code 1802: Error invoking fstat to get file metadata"

/-- Whether the operation may succeed when it is tried again. -/
def isPassing : LedgerFault → Bool
  | busy _ => true
  | locked _ => true
  | _ => false

end LedgerFault

/-- Why an operation failed. -/
inductive Failure where
  | io (fault : DiskFault)
  | parse (reason : Text)
  | storage (reason : Text)
  | ledger (fault : LedgerFault)
  | conflict (reason : Text)
  | config (reason : Text)
  | notFound (reason : Text)
  | validation (reason : Text)
  | serialization (reason : Text)
  | other (reason : Text)
  /-- No failure that is handed on: the program is broken off on the spot. -/
  | aborted (reason : Text)
  deriving DecidableEq, Repr

namespace Failure

def category : Failure → Text
  | io _ => "io"
  | parse _ => "parse"
  | storage _ => "storage"
  | ledger _ => "ledger"
  | conflict _ => "conflict"
  | config _ => "config"
  | notFound _ => "not_found"
  | validation _ => "validation"
  | serialization _ => "serialization"
  | other _ => "other"
  | aborted _ => "aborted"

/-- What is said about a failure. -/
def message : Failure → Text
  | io fault => "IO error: " ++ fault.message
  | parse reason => "Parse error: " ++ reason
  | storage reason => "Storage error: " ++ reason
  | ledger fault => "Ledger error: " ++ fault.message
  | conflict reason => "Conflict: " ++ reason
  | config reason => "Configuration error: " ++ reason
  | notFound reason => "Not found: " ++ reason
  | validation reason => "Validation error: " ++ reason
  | serialization reason => "Serialization error: " ++ reason
  | other reason => reason
  | aborted reason => reason

/-- Whether the operation may succeed when it is tried again. -/
def isRecoverable : Failure → Bool
  | io fault => fault.isPassing
  | ledger fault => fault.isPassing
  | _ => false

/-- The messages of a failure and of the causes below it. -/
def chain (failure : Failure) : List Text :=
  match failure with
  | io fault => [failure.message, fault.message]
  | ledger fault => [failure.message, fault.message, fault.cause]
  | _ => [failure.message]

end Failure

end SampleHarvest
