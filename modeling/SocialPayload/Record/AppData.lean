import SocialPayload.Json.Basic
import SocialPayload.Lookup

namespace SocialPayload

open Xml (Element)

/-- Data that an application keeps: values by key, in ascending order of the keys. -/
structure AppData where
  entries : List (String × String) := []
  ascending : entries.Pairwise (·.1 < ·.1) := by exact .nil
deriving DecidableEq, Repr

instance : Inhabited AppData := ⟨{}⟩

namespace AppData

/-- Puts an entry in its place. It takes the place of one with the same key. -/
def insertEntry (key value : String) : List (String × String) → List (String × String)
  | [] => [(key, value)]
  | (k, v) :: rest =>
    if key < k then (key, value) :: (k, v) :: rest
    else if key = k then (key, value) :: rest
    else (k, v) :: insertEntry key value rest

theorem mem_insertEntry {key value : String} {entry : String × String}
    {entries : List (String × String)} (h : entry ∈ insertEntry key value entries) :
    entry = (key, value) ∨ entry ∈ entries := by
  induction entries with
  | nil => simpa [insertEntry] using h
  | cons first rest ih =>
    unfold insertEntry at h
    split at h
    · simpa using h
    · split at h
      · rcases List.mem_cons.mp h with h | h
        · exact .inl h
        · exact .inr (List.mem_cons_of_mem _ h)
      · rcases List.mem_cons.mp h with h | h
        · exact .inr (h ▸ List.mem_cons_self)
        · exact (ih h).imp id (List.mem_cons_of_mem _)

theorem insertEntry_ascending {key value : String} {entries : List (String × String)}
    (h : entries.Pairwise (·.1 < ·.1)) : (insertEntry key value entries).Pairwise (·.1 < ·.1) := by
  induction entries with
  | nil => simp [insertEntry]
  | cons first rest ih =>
    obtain ⟨hfirst, hrest⟩ := List.pairwise_cons.mp h
    unfold insertEntry
    split
    · rename_i hlt
      refine List.pairwise_cons.mpr ⟨?_, h⟩
      intro entry he
      rcases List.mem_cons.mp he with rfl | he
      · exact hlt
      · exact String.lt_trans hlt (hfirst entry he)
    · rename_i hlt
      split
      · rename_i he
        exact List.pairwise_cons.mpr ⟨fun entry hm => he ▸ hfirst entry hm, hrest⟩
      · rename_i hne
        refine List.pairwise_cons.mpr ⟨?_, ih hrest⟩
        intro entry he
        rcases mem_insertEntry he with rfl | he
        · have hle := String.not_lt.mp hlt
          exact Decidable.byContradiction fun hn =>
            hne (String.le_antisymm (String.not_lt.mp hn) hle)
        · exact hfirst entry he

def insert (data : AppData) (key value : String) : AppData where
  entries := insertEntry key value data.entries
  ascending := insertEntry_ascending data.ascending

/-- Adds the entry that an element describes. Without a key it is none; without a value it has the
empty one. -/
def insertElement (config : Config) (data : AppData) (e : Element) : AppData :=
  match config.text? "key" e with
  | some key => data.insert key ((config.text? "value" e).getD "")
  | none => data

/-- The elements that describe entries: the root alone if it does, or else its children. -/
def entryElements (config : Config) (root : Element) : List Element :=
  if config.isNamed .openSocial "entry" root then [root]
  else root.children.filter (config.isNamed .openSocial "entry")

/-- The application data in a payload. Later entries override earlier ones. -/
def ofRoot (config : Config) (root : Element) : Except ConversionError AppData :=
  match entryElements config root with
  | [] => .error (.missingElement .appData)
  | elements => .ok (elements.foldl (insertElement config) {})

def toJson (data : AppData) : Json :=
  .object (data.entries.map fun (key, value) => (key, .string value))

end AppData

end SocialPayload
