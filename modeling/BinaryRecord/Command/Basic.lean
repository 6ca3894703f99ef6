import BinaryRecord.Command.Calcsize
import BinaryRecord.Command.Pack
import BinaryRecord.Command.Unpack

/-!
# Commands

The three commands as one type.
-/

namespace BinaryRecord

/-- A command with all that it is asked for. -/
inductive Command where
  | calcsize (c : Calcsize)
  | pack (c : PackCommand)
  | unpack (c : UnpackCommand)
  deriving DecidableEq, Repr

namespace Command

/-- Runs a command. -/
def run {m : Type → Type} [Monad m] (h : Host m) : Command → ExceptT Failure m Unit
  | calcsize c => c.run h
  | pack c => c.run h
  | unpack c => c.run h

end Command
end BinaryRecord
