import CalendarFeeds.Manifest
import CalendarFeeds.Proofs.Naming

/-! # Output files — what a directory holds once they are written

    Files are written one after another, and a later one replaces an earlier one of the same name;
    so nothing is lost exactly because all names differ.  Aggregates have different names of their
    own and ask for files first, which gives every one of them its plain file; calendars get
    what is free after that. -/

namespace CalendarFeeds

-- ── Directories ──────────────────────────────────────────────────────────────────

/-- The texts in a directory by the names of their files. -/
def Directory : Type :=
  String → Option String

namespace Directory

def empty : Directory :=
  fun _ => none

/-- Writes a file, in place of another with its name. -/
def write (dir : Directory) (f : OutputFile) : Directory :=
  fun name => if name = f.name then some f.text else dir name

/-- The directory in which files have been written one after another, from an empty one on. -/
def holding (files : List OutputFile) : Directory :=
  files.foldl write empty

/-- Writing files leaves every other name as it was. -/
theorem foldl_write_of_not_mem {files : List OutputFile} {name : String}
    (h : name ∉ files.map OutputFile.name) (dir : Directory) :
    files.foldl write dir name = dir name := by
  induction files generalizing dir with
  | nil => rfl
  | cons f files ih =>
      rw [List.map_cons, List.mem_cons, not_or] at h
      rw [List.foldl_cons, ih h.2, write, if_neg h.1]

/-- After all the files are written each name holds its own text, since no two share a name. -/
theorem foldl_write_of_mem {files : List OutputFile} (apart : (files.map OutputFile.name).Nodup)
    {f : OutputFile} (hf : f ∈ files) (dir : Directory) :
    files.foldl write dir f.name = some f.text := by
  induction files generalizing dir with
  | nil => cases hf
  | cons g files ih =>
      obtain ⟨new, rest⟩ := List.nodup_cons.mp apart
      rw [List.foldl_cons]
      rcases List.mem_cons.mp hf with rfl | later
      · rw [foldl_write_of_not_mem new, write, if_pos rfl]
      · exact ih rest later _

/-- A run's directory holds every file that was written. -/
theorem holding_of_mem {files : List OutputFile} (apart : (files.map OutputFile.name).Nodup)
    {f : OutputFile} (hf : f ∈ files) : holding files f.name = some f.text :=
  foldl_write_of_mem apart hf empty

/-- A directory has the files that were written into it and no others. -/
theorem isSome_holding_iff {files : List OutputFile} (apart : (files.map OutputFile.name).Nodup)
    {name : String} : (holding files name).isSome = true ↔ name ∈ files.map OutputFile.name := by
  constructor
  · intro there
    by_contra other
    rw [holding, foldl_write_of_not_mem other] at there
    cases there
  · intro here
    obtain ⟨f, hf, rfl⟩ := List.mem_map.mp here
    rw [holding_of_mem apart hf]
    rfl

end Directory

-- ── The files of a publication ───────────────────────────────────────────────────

theorem zipWith_map_append {α β γ : Type} (f : α → β → γ) (g : α → β) (xs : List α)
    (more : List β) : List.zipWith f xs (xs.map g ++ more) = xs.map fun x => f x (g x) := by
  induction xs with
  | nil => rfl
  | cons x xs ih => exact congrArg (f x (g x) :: ·) ih

/-- What depends on the left half of a pairing is read off the left list. -/
theorem map_zipWith_left {α β γ δ : Type} {f : α → β → γ} {get : γ → δ} {own : α → δ}
    (h : ∀ a b, get (f a b) = own a) {as : List α} {bs : List β} (len : bs.length = as.length) :
    (List.zipWith f as bs).map get = as.map own := by
  induction as generalizing bs with
  | nil => rfl
  | cons a as ih =>
      obtain ⟨b, bs, rfl⟩ := List.exists_cons_of_length_eq_add_one len
      rw [List.zipWith_cons_cons, List.map_cons, List.map_cons, h, ih (Nat.succ.inj len)]

theorem map_zipWith_right {α β γ : Type} {f : α → β → γ} {get : γ → β} (h : ∀ a b, get (f a b) = b)
    {as : List α} {bs : List β} (len : bs.length = as.length) :
    (List.zipWith f as bs).map get = bs := by
  induction as generalizing bs with
  | nil => rw [List.eq_nil_of_length_eq_zero len]; rfl
  | cons a as ih =>
      obtain ⟨b, bs, rfl⟩ := List.exists_cons_of_length_eq_add_one len
      rw [List.zipWith_cons_cons, List.map_cons, h, ih (Nat.succ.inj len)]

namespace Publication

/-- The file of an aggregate whose name nobody else has asked for. -/
def ownFile (a : Aggregate) : String :=
  a.name ++ ending

/-- Aggregates with different names get plain files, and calendars get others. -/
theorem exists_ofSource_eq (window : Window) (s : Source) {aggregates : List Aggregate}
    (apart : (aggregates.map Aggregate.name).Nodup) :
    ∃ later : List String,
      later.length = (published s).length
        ∧ (aggregates.map ownFile ++ later).Nodup
        ∧ (∀ name ∈ aggregates.map ownFile ++ later, ∃ front, name = front ++ ending)
        ∧ ofSource window s aggregates =
          { manifest :=
              { window := window
                calendars := List.zipWith feedEntry (published s) later
                aggregates := aggregates.map fun a => aggregateEntry a (ownFile a)
                errors := (unpublished s).map fun c => ⟨c.name, c.errors⟩ }
            feeds := aggregates.map (fun a => aggregateFile a (ownFile a))
              ++ List.zipWith feedFile (published s) later } := by
  have fresh : ∀ stem ∈ aggregates.map Aggregate.name, stem ++ ending ∉ [] :=
    fun _ _ => List.not_mem_nil
  obtain ⟨later, given⟩ :=
    Naming.assignFrom_append apart fresh ((published s).map fun c => Text.slug c.name)
  have names : fileNames aggregates (published s) = aggregates.map ownFile ++ later := by
    rw [fileNames, Naming.assign, given, List.map_map]
    rfl
  -- aggregates ask first, so the files of the calendars are those that come after theirs
  have after : (fileNames aggregates (published s)).drop aggregates.length = later := by
    rw [names]
    exact List.drop_left' (List.length_map _)
  have length : later.length = (published s).length := by
    have whole := Naming.length_assign ending
      (aggregates.map Aggregate.name ++ (published s).map fun c => Text.slug c.name)
    rw [Naming.assign, given] at whole
    simp only [List.length_append, List.length_map] at whole
    omega
  refine ⟨later, length, ?_, ?_, ?_⟩
  · rw [← names]
    exact Naming.nodup_assign ending _
  · rw [← names]
    intro name here
    exact Naming.exists_eq_of_mem_assignFrom here
  · simp only [ofSource]
    rw [after, names, zipWith_map_append, zipWith_map_append]

end Publication

end CalendarFeeds
