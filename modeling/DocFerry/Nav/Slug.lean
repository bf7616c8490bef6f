import DocFerry.Text.Basic
/-!
# Slugs

A page is named in the navigation by the path of its file without extension, from the root of the
new site, with forward slashes.

Main fact: a slug never starts with a slash (`slug_head`).
-/
namespace DocFerry.Nav

/-- **A path continued by another**, as texts: the other replaces it if it starts with a slash. -/
def joinPaths (directory path : Text) : Text :=
  if path.head? = some '/' then path
  else if directory.isEmpty ∨ directory.getLast? = some '/' then directory ++ path
  else directory ++ '/' :: path

def forwardSlashes (s : Text) : Text := s.map fun c => if c = '\\' then '/' else c

/-- **The slug of a page** in a directory of the site. -/
def slug (directory baseName : Text) : Text :=
  (joinPaths (forwardSlashes directory) baseName).dropWhile (· == '/')

theorem slug_head (directory baseName : Text) : (slug directory baseName).head? ≠ some '/' := by
  unfold slug
  intro h
  have := List.head?_dropWhile_not (· == '/') (joinPaths (forwardSlashes directory) baseName)
  rw [h] at this
  simp at this

end DocFerry.Nav
