/-
# Paths

A path leads to a place below a directory, in steps that slashes separate. Every step starts from a
directory.

| step | leads |
| --- | --- |
| empty, or `.` | nowhere else |
| `..` | back to the directory around |
| any other name | on to the place of this name |

A path leads to no place if it begins with a slash, goes back beyond the directory that it starts
from, or is longer than file systems allow. So it does not leave the directory, which is all that a tool in
a closed directory can see.
-/

namespace DecimalMachine

/-- A place below a directory: the names on the way down to it, the last one first. -/
abbrev Place := List String

namespace Place

/-- The directory itself. -/
def here : Place := []

/-- Whether one place lies anywhere below another one. -/
def isBelow (inner outer : Place) : Bool := inner != outer && outer.isSuffixOf inner

end Place

namespace Path

/-- The bytes that a name can have. -/
def longestName : Nat := 255

/-- The bytes that a path can have. -/
def longest : Nat := 4095

/-- The steps of a path; there is one more of them than slashes. -/
def stepChars : List Char → List (List Char)
  | [] => [[]]
  | c :: rest =>
    if c = '/' then [] :: stepChars rest
    else
      match stepChars rest with
      | [] => [[c]]
      | step :: more => (c :: step) :: more

def steps (path : String) : List String := (stepChars path.toList).map String.ofList

/-- Where steps lead from a place. -/
def follow? (isDirectory : Place → Bool) : Place → List String → Option Place
  | place, [] => some place
  | place, step :: rest =>
    if isDirectory place then
      if step = "" ∨ step = "." then follow? isDirectory place rest
      else if step = ".." then
        match place with
        | [] => none
        | _ :: outer => follow? isDirectory outer rest
      else if step.utf8ByteSize ≤ longestName then follow? isDirectory (step :: place) rest
      else none
    else none

/-- Where a path leads from the directory itself. -/
def place? (isDirectory : Place → Bool) (path : String) : Option Place :=
  if path.toList.head? = some '/' ∨ longest < path.utf8ByteSize then none
  else follow? isDirectory .here (steps path)

/-- A path that leads somewhere leads there among more directories as well. -/
theorem follow?_mono {narrow wide : Place → Bool} (h : ∀ p, narrow p = true → wide p = true)
    {start place : Place} {path : List String} (hf : follow? narrow start path = some place) :
    follow? wide start path = some place := by
  induction path generalizing start with
  | nil => exact hf
  | cons step rest ih =>
    unfold follow? at hf ⊢
    by_cases hd : narrow start = true
    · rw [if_pos hd] at hf
      rw [if_pos (h start hd)]
      split at hf <;> rename_i hs
      · rw [if_pos hs]
        exact ih hf
      · rw [if_neg hs]
        split at hf <;> rename_i hb
        · rw [if_pos hb]
          cases start with
          | nil => exact hf
          | cons name outer => exact ih hf
        · rw [if_neg hb]
          split at hf <;> rename_i hl
          · rw [if_pos hl]
            exact ih hf
          · cases hf
    · rw [if_neg hd] at hf
      cases hf

/-- A path leads to the same place if more places are directories. -/
theorem place?_mono {narrow wide : Place → Bool} (h : ∀ p, narrow p = true → wide p = true)
    {path : String} {place : Place} (hp : place? narrow path = some place) :
    place? wide path = some place := by
  unfold place? at hp ⊢
  split at hp <;> rename_i hl
  · cases hp
  · rw [if_neg hl]
    exact follow?_mono h hp

end Path
end DecimalMachine
