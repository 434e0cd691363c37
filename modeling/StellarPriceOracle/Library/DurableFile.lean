import Mathlib.Data.List.Basic

-- A name of a directory whose contents are renamed into place; a crash undoes what was not synced.
structure DurableFile (α : Type) where
  synced : Option α
  renamed : List α

namespace DurableFile
open List
variable {α : Type} {file : DurableFile α}

section
variable (file : DurableFile α)

def content : Option α := file.renamed.getLast?.or file.synced

def rename (a : α) : DurableFile α := {file with renamed := file.renamed ++ [a]}

def sync : DurableFile α := ⟨file.content,[]⟩

def survivors : List (Option α) := file.synced :: file.renamed.map some

end

def settle (left : Option α) : DurableFile α := ⟨left,[]⟩

theorem content_survives : file.content ∈ file.survivors := by
  unfold content
  cases last : file.renamed.getLast? with
  | none => exact mem_cons_self
  | some => exact mem_cons_of_mem _ (mem_map_of_mem (mem_of_getLast? last))

@[simp] theorem content_rename : (file.rename a).content = some a := by
  simp [content,rename]

@[simp] theorem survivors_rename : (file.rename a).survivors = file.survivors ++ [some a] := by
  simp [survivors,rename]

@[simp] theorem survivors_sync : file.sync.survivors = [file.content] := rfl

@[simp] theorem survivors_settle : (settle left).survivors = [left] := rfl

end DurableFile
