import GamePack.Command.Build
import GamePack.Command.Listing

/-!
Running a command line: from its words and a disk to what was said, the
disk afterwards, and whether the command succeeded.
-/
namespace GamePack

/-- Carry out a command. -/
def Command.action : Command → Action Unit
  | .build options output => Action.build options output
  | .validate options => Action.validate options
  | .inspect options => options.inspect

/-- Carry out an invocation on a disk. -/
def Invocation.run (i : Invocation) (disk : Disk) :
    Except Error Unit × Session :=
  i.command.action.run.run { disk, verbose := i.verbose }

end GamePack
