import DocFerry.Text.Lines
import DocFerry.Page.Metadata
import DocFerry.Page.Rank
import DocFerry.Site.World
/-!
# Reading files

A document of the old site is read leniently: one byte-order mark in front is dropped, an
ill-formed piece shows as the replacement character, and newlines are written one way.  Every other
text file must be well formed.

Main fact: reading changes nothing, so a document that cannot be read has the default rank and one
that can be read has the rank in its metadata (`documentRank_of_error`).
-/
namespace DocFerry.Site

open Files Text.Utf8

/-- **The octets of a byte-order mark.** -/
def markOctets : Octets := [0xef, 0xbb, 0xbf]

/-- **The octets after a byte-order mark**; a file that ends inside a mark holds nothing. -/
def dropMark (bytes : Octets) : Octets :=
  if markOctets.isPrefixOf bytes then bytes.drop 3
  else if bytes.isPrefixOf markOctets then []
  else bytes

def documentText (bytes : Octets) : Text := Text.unifyNewlines (decodeLossy (dropMark bytes))

/-- **The text of a file that must be well formed**, none if it is not. -/
def strictText? (bytes : Octets) : Option Text := (decode? bytes).map Text.unifyNewlines

def readDocument (d : Disk) (p : Path) : Except Problem Text := (d.read p).map documentText

/-- **The rank of an entry without one.** -/
def defaultRank : Binary64 := Binary64.ofDecimal false 9999 0

/-- **The rank of an index page**, before every other page of standard sites. -/
def indexRank : Binary64 := Binary64.ofDecimal true 1 0

/-- **The rank in a document's metadata.** -/
def rankInText (s : Text) : Binary64 :=
  ((Table.get? "sidebar_position".toList (Page.split s).1).bind Page.rank?).getD defaultRank

/-- **The rank of a document**, the default one if the file system refuses to read it. -/
def documentRank (d : Disk) (p : Path) : Except Problem Binary64 :=
  match readDocument d p with
  | .ok s => .ok (rankInText s)
  | .error .nullInPath => .error .nullInPath
  | .error _ => .ok defaultRank

theorem documentRank_of_error {d : Disk} {p : Path} {problem : Problem}
    (h : readDocument d p = .error problem) (hn : problem ≠ .nullInPath) :
    documentRank d p = .ok defaultRank := by
  unfold documentRank
  rw [h]
  cases problem <;> first | rfl | exact absurd rfl hn

end DocFerry.Site
