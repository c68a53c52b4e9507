/-
  Python exceptions, as far as some handler of the runtime tells them apart.

  An exception is a class together with what its methods answer when a handler
  asks for a text: they give one, or raise in their turn (a class of a script or a
  driver may override `__str__`, `__format__` and `sentinel_message`).
-/
import ContinuoRuntime.Python.Str

namespace ContinuoRuntime

/-- What `sys.exit` was given. -/
inductive ExitCode where
  | none
  | int (n : ℤ)
  | other
  deriving DecidableEq

/-- The classes that handlers distinguish. -/
inductive ExcClass where
  /-- the subclasses of `HarnessError` -/
  | contractError | readError | scriptError | conformError | loadError
  | valueError | unicodeDecodeError | unicodeEncodeError | typeError | tokenError | osError
  | adapterDiscoveryError | yamlError
  /-- another subclass of `Exception` -/
  | other (name : Str)
  | systemExit (code : ExitCode)
  /-- another subclass of `BaseException` only, such as `KeyboardInterrupt` -/
  | base (name : Str)
  deriving DecidableEq

namespace ExcClass

/-- `issubclass(c, HarnessError)`. -/
def isHarness : ExcClass → Bool
  | contractError | readError | scriptError | conformError | loadError => true
  | _ => false

/-- `issubclass(c, Exception)`. -/
def isException : ExcClass → Bool
  | systemExit _ | base _ => false
  | _ => true

/-- `issubclass(c, ValueError)`. -/
def isValueError : ExcClass → Bool
  | valueError | unicodeDecodeError | unicodeEncodeError => true
  | _ => false

end ExcClass

mutual
/-- An exception. -/
inductive Exc where
  /-- of a class with the methods of `Exception` -/
  | text (cls : ExcClass) (msg : Str)
  /-- of a class with methods of its own; `sentinelMessage` is for the subclasses of
      `HarnessError`, with the other attributes that their handler asks for -/
  | custom (cls : ExcClass) (str format sentinelMessage : Answer)
/-- What a method does. -/
inductive Answer where
  | gives (text : Str)
  /-- it raises; so do `str` and `format` where the method gives no text -/
  | raises (e : Exc)
end

deriving instance DecidableEq for Exc, Answer

/-- The method has been called. -/
def Answer.get : Answer → Except Exc Str
  | gives text => .ok text
  | raises e => .error e

namespace Exc

def cls : Exc → ExcClass
  | text c _ | custom c _ _ _ => c

/-- `str(exc)`. -/
def str : Exc → Except Exc Str
  | text _ m => .ok m
  | custom _ answer _ _ => answer.get

/-- `f"{exc}"`. -/
def format : Exc → Except Exc Str
  | text _ m => .ok m
  | custom _ _ answer _ => answer.get

end Exc

/-- `raise ContractError(msg)`. -/
def contractError {α : Type} (msg : Str) : Except Exc α := .error (.text .contractError msg)

end ContinuoRuntime
