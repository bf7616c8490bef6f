import DocFerry.Text.Blank
import DocFerry.Text.Case
/-!
# Labels from names

A file or folder name becomes a label word by word: blanks, hyphens and underscores separate words,
a known acronym gets its own spelling, and every other word is capitalised.

Main fact: a name without words has an empty label (`titleCase_of_separators`).
-/
namespace DocFerry.Text

/-- **Acronyms** in lower case, with the spelling they are shown in. -/
def acronyms : List (Text × Text) :=
  [("ai", "AI"), ("api", "API"), ("ui", "UI"), ("sdk", "SDK"), ("cli", "CLI"), ("ios", "iOS"),
    ("html", "HTML"), ("rest", "REST"), ("sip", "SIP"), ("rtmp", "RTMP"), ("stt", "STT")].map
      fun a => (a.1.toList, a.2.toList)

/-- **What separates the words of a name.** -/
def isNameSeparator (c : Char) : Bool := isBlank c || c == '-' || c == '_'

def titleWord (word : Text) : Text :=
  (acronyms.lookup (lower word)).getD (capitalize word)

def titleCase (name : Text) : Text :=
  join [' '] ((wordsBy isNameSeparator name).map titleWord)

theorem wordsBy_eq_nil {sep : Char → Bool} {s : Text} (h : ∀ c ∈ s, sep c = true) :
    wordsBy sep s = [] := by
  unfold wordsBy
  induction s with
  | nil => rfl
  | cons c rest ih =>
    rw [splitWhere, if_pos (h c (by simp))]
    simpa using ih fun d hd => h d (by simp [hd])

/-- **A name without words has an empty label.** -/
theorem titleCase_of_separators {name : Text} (h : ∀ c ∈ name, isNameSeparator c = true) :
    titleCase name = [] := by
  simp [titleCase, wordsBy_eq_nil h, join]

end DocFerry.Text
