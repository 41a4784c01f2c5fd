import Strongbox.AssocList

/-!
Dictionaries from text to values of a type, in order of insertion. Main statement: a repeated key
keeps its first place and takes its last value.
-/

namespace Strongbox

structure Dictionary (α : Type) where
  entries : List (String × α)
  nodup : (entries.map Prod.fst).Nodup

namespace Dictionary

variable {α : Type}

def empty : Dictionary α := ⟨[], by simp⟩

def keys (d : Dictionary α) : List String :=
  d.entries.map Prod.fst

def find? (d : Dictionary α) (k : String) : Option α :=
  d.entries.lookup k

def contains (d : Dictionary α) (k : String) : Bool :=
  (d.find? k).isSome

def insert (d : Dictionary α) (k : String) (v : α) : Dictionary α :=
  ⟨AssocList.put k v d.entries, AssocList.nodup_put k v d.nodup⟩

def ofList (entries : List (String × α)) : Dictionary α :=
  entries.foldl (fun d (k, v) => d.insert k v) empty

theorem keys_insert (d : Dictionary α) (k : String) (v : α) :
    (d.insert k v).keys = if k ∈ d.keys then d.keys else d.keys ++ [k] :=
  AssocList.map_fst_put k v d.entries

theorem find?_insert (d : Dictionary α) (k k' : String) (v : α) :
    (d.insert k v).find? k' = if k' = k then some v else d.find? k' :=
  AssocList.lookup_put k k' v d.entries

end Dictionary

end Strongbox
