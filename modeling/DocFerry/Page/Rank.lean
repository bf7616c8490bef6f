import DocFerry.Number.Reading
/-!
# Ranks

The place of a page among its siblings is a number written in its metadata.  A value that is not a
number never orders anything, so it counts as no rank.

Main fact: no rank is the value that is not a number (`isNaN_of_rank?`).
-/
namespace DocFerry.Page

/-- **The rank written in a text.** -/
def rank? (s : Text) : Option Binary64 :=
  (Binary64.readNumber? s).filter fun x => !x.isNaN

/-- **No rank is the value that is not a number.** -/
theorem isNaN_of_rank? {s : Text} {x : Binary64} (h : rank? s = some x) : x.isNaN = false := by
  simpa using (Option.filter_eq_some_iff.1 h).2

end DocFerry.Page
