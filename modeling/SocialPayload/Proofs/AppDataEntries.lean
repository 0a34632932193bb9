import Mathlib.Data.List.Perm.Basic
import SocialPayload.Record.AppData

namespace SocialPayload.AppData

theorem insertEntry_perm {key value : String} {entries : List (String × String)}
    (h : key ∉ entries.map Prod.fst) :
    (insertEntry key value entries).Perm ((key, value) :: entries) := by
  induction entries with
  | nil => exact .refl _
  | cons first rest ih =>
    simp only [List.map_cons, List.mem_cons, not_or] at h
    unfold insertEntry
    split
    · exact .refl _
    · rw [if_neg h.1]
      exact ((ih h.2).cons first).trans (.swap _ _ _)

def insertAll (data : AppData) (entries : List (String × String)) : AppData :=
  entries.foldl (fun data entry => data.insert entry.1 entry.2) data

/-- Entries with new and different keys are all kept. -/
theorem insertAll_perm {data : AppData} {entries : List (String × String)}
    (h : ((entries ++ data.entries).map Prod.fst).Nodup) :
    (data.insertAll entries).entries.Perm (entries ++ data.entries) := by
  induction entries generalizing data with
  | nil => exact .refl _
  | cons entry rest ih =>
    simp only [List.cons_append, List.map_cons, List.nodup_cons, List.map_append,
      List.mem_append, not_or] at h
    have hinsert : (data.insert entry.1 entry.2).entries.Perm (entry :: data.entries) :=
      insertEntry_perm h.1.2
    have hperm : (rest ++ (data.insert entry.1 entry.2).entries).Perm
        (entry :: (rest ++ data.entries)) :=
      (hinsert.append_left rest).trans List.perm_middle
    have hnodup : ((rest ++ (data.insert entry.1 entry.2).entries).map Prod.fst).Nodup := by
      rw [(hperm.map Prod.fst).nodup_iff]
      simpa using h
    exact (ih hnodup).trans hperm

theorem nodup_keys (data : AppData) : (data.entries.map Prod.fst).Nodup :=
  List.Pairwise.map _ (fun _ _ => String.ne_of_lt) data.ascending

/-- There is only one order for the same entries. -/
theorem eq_of_perm {data data' : AppData} (h : data.entries.Perm data'.entries) : data = data' := by
  have hentries := h.eq_of_pairwise
    (fun a b _ _ hab hba => absurd (String.lt_trans hab hba) (String.lt_irrefl _))
    data.ascending data'.ascending
  cases data
  cases data'
  simp_all

/-- The entries of some data make up the data in any order. -/
theorem insertAll_of_perm {data : AppData} {entries : List (String × String)}
    (h : entries.Perm data.entries) : insertAll {} entries = data := by
  apply eq_of_perm
  refine (insertAll_perm ?_).trans (by simpa using h)
  simpa using (h.map Prod.fst).nodup_iff.mpr data.nodup_keys

end SocialPayload.AppData
