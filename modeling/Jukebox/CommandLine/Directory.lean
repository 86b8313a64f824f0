import Jukebox.CommandLine.Reply
import Jukebox.Text.Separator

/-!
# Directories as values

A directory that commands work in: its files by path, with all texts. A directory below it is there
as long as there is a file in it. Paths go down and up again, but not out of the directory.

What has been written is read again (`read?_of_write?`).
-/

set_option autoImplicit false
set_option relaxedAutoImplicit false

namespace Jukebox.CommandLine

/-- The names on the way to a file or a directory. -/
abbrev Steps := List String

structure Directory where
  files : Assoc Steps String

namespace Directory

/-- The parts of a path between its slashes. -/
def parts (path : String) : List String :=
  (Text.splitText ['/'] path.toList).map String.ofList

/-- The directory with some files. -/
def ofFiles (files : List (String × String)) : Directory :=
  ⟨files.foldl (fun m (path, text) ↦ Assoc.set m (parts path) text) []⟩

/-- Whether there is a directory at the end of some steps. -/
def holdsDirectory (d : Directory) (steps : Steps) : Bool :=
  steps.isEmpty || d.files.any fun f ↦ steps.isPrefixOf f.1 && steps.length < f.1.length

/-- One part of a path, taken at the end of some steps. -/
def step (d : Directory) (steps : Steps) (part : String) : Option Steps :=
  if d.holdsDirectory steps then
    if part = "" ∨ part = "." then some steps
    else if part = ".." then if steps.isEmpty then none else some steps.dropLast
    else some (steps ++ [part])
  else none

/-- The steps that a path stands for; all but the last lead to directories. -/
def resolve? (d : Directory) (path : String) : Option Steps :=
  if path.startsWith "/" ∨ path = "" then none else (parts path).foldlM d.step []

/-- The text of a file. -/
def read? (d : Directory) (path : String) : Option String :=
  (d.resolve? path).bind fun steps ↦ Assoc.get? d.files steps

/-- The directory with a file written. -/
def write? (d : Directory) (path text : String) : Option Directory := do
  let steps ← d.resolve? path
  if d.holdsDirectory steps then none else some ⟨Assoc.set d.files steps text⟩

theorem holdsDirectory_set {d : Directory} {steps : Steps} (h : d.holdsDirectory steps = true)
    (written : Steps) (text : String) :
    holdsDirectory ⟨Assoc.set d.files written text⟩ steps = true := by
  unfold holdsDirectory at h ⊢
  rw [Bool.or_eq_true] at h ⊢
  refine h.imp id fun h ↦ ?_
  obtain ⟨f, hf, hlong⟩ := List.any_eq_true.mp h
  have hkey : f.1 ∈ (Assoc.set d.files written text).keys :=
    (Assoc.mem_keys_set d.files written f.1 text).mpr (Or.inr (List.mem_map_of_mem hf))
  obtain ⟨g, hg, hgf⟩ := List.mem_map.mp hkey
  exact List.any_eq_true.mpr ⟨g, hg, hgf ▸ hlong⟩

theorem foldlM_step_set {d : Directory} (written : Steps) (text : String) {ps : List String}
    {start steps : Steps} (h : ps.foldlM d.step start = some steps) :
    ps.foldlM (step ⟨Assoc.set d.files written text⟩) start = some steps := by
  induction ps generalizing start with
  | nil => exact h
  | cons part rest ih =>
    rw [List.foldlM_cons, Option.bind_eq_bind, Option.bind_eq_some_iff] at h ⊢
    obtain ⟨next, hnext, hrest⟩ := h
    refine ⟨next, ?_, ih hrest⟩
    unfold step at hnext ⊢
    split at hnext
    · rename_i hd
      rw [if_pos (holdsDirectory_set hd written text)]
      exact hnext
    · cases hnext

theorem read?_of_write? {d e : Directory} {path text : String} (h : d.write? path text = some e) :
    e.read? path = some text := by
  unfold write? at h
  rw [Option.bind_eq_bind, Option.bind_eq_some_iff] at h
  obtain ⟨steps, hsteps, h⟩ := h
  split at h
  · cases h
  · cases h
    have hresolve : resolve? ⟨Assoc.set d.files steps text⟩ path = some steps := by
      unfold resolve? at hsteps ⊢
      split at hsteps
      · cases hsteps
      · rename_i hpath
        rw [if_neg hpath]
        exact foldlM_step_set steps text hsteps
    rw [read?, hresolve, Option.bind_some, Assoc.get?_set_self]

/-- Runs a command line in the directory. -/
def perform (d : Directory) (environment : Environment) (configHome : String)
    (clock : Calendar.Instant) (args : List String) : Directory × Reply :=
  let w : World := ⟨d.read?, environment, configHome, clock⟩
  let reply := w.reply args
  match reply.written with
  | none => (d, reply)
  | some (path, text) =>
    match d.write? path text with
    | some d => (d, reply)
    | none => (d, .notWritten path)

end Directory

end Jukebox.CommandLine
