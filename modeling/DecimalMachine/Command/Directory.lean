/-
# Directories

A closed directory of files, in which the tools are run. The places on the way to a file are directories, and
there are no others but the directory itself. A file can be written wherever a path leads to a place that
is no directory.

It is one store of files among others (`Directory.store`), and what is true of the tools is true of them on any
store that reads back what was written.
-/

import DecimalMachine.Command.Path
import DecimalMachine.Command.Plan

namespace DecimalMachine

/-- The files of a directory, each with its place. -/
structure Directory where
  files : List (Place × List UInt8)

namespace Directory

def isDirectory (d : Directory) (place : Place) : Bool :=
  place == .here || d.files.any fun (file, _) => file.isBelow place

/-- Where a path leads. -/
def place? (d : Directory) (path : String) : Option Place := Path.place? d.isDirectory path

/-- The bytes of a file. -/
def file? (d : Directory) (path : String) : Option (List UInt8) :=
  (d.place? path).bind fun place => d.files.lookup place

/-- The directory after bytes were put at a place. -/
def put (d : Directory) (place : Place) (bytes : List UInt8) : Directory :=
  ⟨(place, bytes) :: d.files⟩

/-- The directory after a file was written; none if it cannot be. -/
def write? (d : Directory) (path : String) (bytes : List UInt8) : Option Directory :=
  ((d.place? path).filter fun place => !d.isDirectory place).map (d.put · bytes)

/-- A directory with the given files and the directories around them. Of two files of one place the
later one stays. -/
def ofFiles (files : List (String × List UInt8)) : Directory :=
  files.foldl
    (fun d (path, bytes) => (Path.place? (fun _ => true) path).elim d (d.put · bytes)) ⟨[]⟩

/-- What was a directory stays one when a file is put somewhere. -/
theorem isDirectory_put {d : Directory} {p : Place} (place : Place) (bytes : List UInt8)
    (h : d.isDirectory p = true) : (d.put place bytes).isDirectory p = true := by
  simp only [isDirectory, put, List.any_cons, Bool.or_eq_true] at h ⊢
  exact h.imp_right .inr

/-- What was written is read back by the same path. -/
theorem file?_of_write? {d after : Directory} {path : String} {bytes : List UInt8}
    (h : d.write? path bytes = some after) : after.file? path = some bytes := by
  obtain ⟨place, hp, rfl⟩ := Option.map_eq_some_iff.1 h
  have hp : d.place? path = some place := (Option.filter_eq_some_iff.1 hp).1
  have hq : (d.put place bytes).place? path = some place :=
    Path.place?_mono (fun _ => isDirectory_put place bytes) hp
  rw [file?, hq]
  simp [put]

/-- A directory as a store of files. A file that cannot be written leaves it as it is. -/
def store : FileStore Directory where
  read? := file?
  write d path bytes :=
    match d.write? path bytes with
    | some after => (true, after)
    | none => (false, d)

/-- **A directory reads back what was written.** -/
theorem readsBack_store : store.ReadsBack := by
  intro d path bytes wrote
  cases written : d.write? path bytes with
  | none => simp [store, written] at wrote
  | some after => simpa [store, written] using file?_of_write? written

end Directory
end DecimalMachine
