import Praas.Common.Bytes

/-! # The processes of an application as a process sees them

`praas::common::Application`: the controller and each of its workers keep one
and apply the updates they receive to it.
-/

namespace Praas.Common

/-- `Application::Status`; a value read from a message is cast unchecked. -/
abbrev Status := Int

def Status.ACTIVE : Status := 1
def Status.SWAPPED : Status := 2

structure Application where
  activeProcesses : List Str := []
  swappedProcesses : List Str := []
deriving DecidableEq, Repr

structure ApplicationUpdate where
  status : Status
  processId : Str
deriving DecidableEq, Repr

/-- `Application::update`: every status but `ACTIVE` is taken for a swap. -/
def Application.update (a : Application) (status : Status) (processId : Str) : Application :=
  if status = Status.ACTIVE then
    { a with activeProcesses := a.activeProcesses ++ [processId] }
  else if processId ∈ a.activeProcesses then
    { activeProcesses := a.activeProcesses.erase processId
      swappedProcesses := a.swappedProcesses ++ [processId] }
  else a

end Praas.Common
