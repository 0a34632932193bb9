import Mathlib.Data.Finset.Card
import SocialPayload.Proofs.AppDataEntries
import SocialPayload.Proofs.Refusals

namespace SocialPayload.AppData

open Xml (Element Node)

section Lookup

variable {data data' : AppData} {key value : String}

def lookup (data : AppData) (key : String) : Option String :=
  data.entries.lookup key

@[simp] theorem lookup_default (key : String) : lookup default key = none := rfl

theorem lookup_cons_ite (key : String) (first : String × String) (rest : List (String × String)) :
    (first :: rest).lookup key = if key = first.1 then some first.2 else rest.lookup key := by
  rw [List.lookup_cons]
  split <;> simp_all

theorem lookup_insertEntry (key value other : String) (entries : List (String × String)) :
    (insertEntry key value entries).lookup other =
      if other = key then some value else entries.lookup other := by
  induction entries with
  | nil => exact lookup_cons_ite other (key, value) []
  | cons first rest ih =>
    rw [insertEntry]
    by_cases hlt : key < first.1
    · rw [if_pos hlt, lookup_cons_ite]
    · rw [if_neg hlt]
      by_cases hkey : key = first.1
      · rw [if_pos hkey, lookup_cons_ite, lookup_cons_ite, hkey]
        split <;> rfl
      · rw [if_neg hkey, lookup_cons_ite, lookup_cons_ite, ih]
        by_cases hother : other = first.1
        · rw [if_pos hother, if_pos hother, if_neg (hother ▸ Ne.symm hkey)]
        · rw [if_neg hother, if_neg hother]

theorem lookup_insert (data : AppData) (key value other : String) :
    (data.insert key value).lookup other =
      if other = key then some value else data.lookup other :=
  lookup_insertEntry key value other data.entries

theorem mem_iff_lookup {entries : List (String × String)} (h : (entries.map Prod.fst).Nodup) :
    (key, value) ∈ entries ↔ entries.lookup key = some value := by
  induction entries with
  | nil => simp
  | cons first rest ih =>
    obtain ⟨k, v⟩ := first
    rw [List.map_cons, List.nodup_cons] at h
    by_cases hkey : key = k
    · subst hkey
      have hrest : (key, value) ∉ rest := fun hmem => h.1 (List.mem_map.mpr ⟨_, hmem, rfl⟩)
      simp [hrest, eq_comm]
    · simp [lookup_cons_ite, hkey, ih h.2]

theorem mem_entries_iff : (key, value) ∈ data.entries ↔ data.lookup key = some value :=
  mem_iff_lookup data.nodup_keys

/-- Data is what is found in it. -/
theorem ext_lookup (h : ∀ key, data.lookup key = data'.lookup key) : data = data' := by
  apply eq_of_perm
  apply (List.perm_ext_iff_of_nodup data.nodup_keys.of_map data'.nodup_keys.of_map).mpr
  rintro ⟨key, value⟩
  rw [mem_entries_iff, mem_entries_iff, h]

end Lookup

variable {config : Config} {root e : Element} {key value : String}

/-- The elements that describe the entries of a document, by its root. A root that describes one
does so alone, whatever is in it. -/
inductive Entries (config : Config) (root : Element) : List Element → Prop
  | root (entry : config.isNamed .openSocial "entry" root = true) : Entries config root [root]
  | children (other : ¬ config.isNamed .openSocial "entry" root = true) :
      Entries config root (root.children.filter (config.isNamed .openSocial "entry"))

theorem entries_iff {entries : List Element} :
    Entries config root entries ↔ entryElements config root = entries := by
  rw [entryElements]
  constructor
  · intro h
    cases h with
    | root entry => rw [if_pos entry]
    | children other => rw [if_neg other]
  · rintro rfl
    split
    · rename_i entry
      exact .root entry
    · rename_i other
      exact .children other

/-- An element of an entry whose key has a text, which may be empty. -/
def HasKey (config : Config) (key : String) (e : Element) : Prop :=
  ∃ c, config.FirstChild "key" e c ∧ c.text = key

instance (key : String) (e : Element) : Decidable (HasKey config key e) :=
  decidable_of_iff _ Config.text?_eq_some

/-- The value that an element of an entry describes, which is empty when it describes none. -/
inductive HasValue (config : Config) (e : Element) : String → Prop
  | child {c : Element} (first : config.FirstChild "value" e c) : HasValue config e c.text
  | none (none : ∀ c ∈ e.children, ¬ config.isNamed .openSocial "value" c = true) :
      HasValue config e ""

def valueOf (config : Config) (e : Element) : String :=
  (config.text? "value" e).getD ""

theorem valueOf_eq_iff : valueOf config e = value ↔ HasValue config e value := by
  constructor
  · rintro rfl
    rw [valueOf]
    cases htext : config.text? "value" e with
    | none => exact .none (Config.text?_eq_none.mp htext)
    | some text =>
      obtain ⟨c, hfirst, rfl⟩ := Config.text?_eq_some.mp htext
      exact .child hfirst
  · intro h
    rw [valueOf]
    cases h with
    | child first =>
      rw [Config.text?_eq_some.mpr ⟨_, first, rfl⟩]
      rfl
    | none none =>
      rw [Config.text?_eq_none.mpr none]
      rfl

theorem lookup_insertElement (data : AppData) (e : Element) (key : String) :
    (data.insertElement config e).lookup key =
      if HasKey config key e then some (valueOf config e) else data.lookup key := by
  simp only [HasKey, ← Config.text?_eq_some, insertElement]
  cases config.text? "key" e with
  | none => simp
  | some text =>
    rw [lookup_insert, valueOf]
    simp only [Option.some.injEq, eq_comm]

/-- The data of a list of entries, which are none to begin with. -/
def ofElements (config : Config) (entries : List Element) : AppData :=
  entries.foldl (insertElement config) default

/-- What adding elements does to the value of a key: the last of them that has the key decides. -/
theorem lookup_foldl (data : AppData) (entries : List Element) (key : String) :
    (entries.foldl (insertElement config) data).lookup key =
      (((entries.filter (HasKey config key ·)).getLast?).map (valueOf config)).or
        (data.lookup key) := by
  induction entries generalizing data with
  | nil => rfl
  | cons e rest ih =>
    rw [List.foldl_cons, ih, lookup_insertElement, List.filter_cons]
    by_cases hkey : HasKey config key e
    · cases hlast : (rest.filter (HasKey config key ·)).getLast? <;>
        simp [hkey, hlast, List.getLast?_cons]
    · simp [hkey]

theorem lookup_ofElements (entries : List Element) (key : String) :
    (ofElements config entries).lookup key =
      ((entries.filter (HasKey config key ·)).getLast?).map (valueOf config) := by
  rw [ofElements, lookup_foldl, lookup_default, Option.or_none]

theorem lookup_append (earlier later : List Element) (key : String) :
    (ofElements config (earlier ++ later)).lookup key =
      ((ofElements config later).lookup key).or ((ofElements config earlier).lookup key) := by
  rw [ofElements, List.foldl_append, lookup_foldl, ← lookup_ofElements]
  rfl

/-- Only what entries have the same key, and in which order, matters. -/
theorem ofElements_congr {entries entries' : List Element}
    (h : ∀ key, entries'.filter (HasKey config key ·) = entries.filter (HasKey config key ·)) :
    ofElements config entries' = ofElements config entries := by
  apply ext_lookup
  intro key
  rw [lookup_ofElements, lookup_ofElements, h]

theorem getLast?_filter_iff {α : Type} {p : α → Prop} [DecidablePred p] {l : List α} {a : α} :
    (l.filter (p ·)).getLast? = some a ↔
      ∃ earlier later, l = earlier ++ a :: later ∧ p a ∧ ∀ b ∈ later, ¬ p b := by
  rw [List.getLast?_eq_head?_reverse, ← List.filter_reverse, List.head?_filter, IsFirst.find?_iff]
  constructor
  · rintro ⟨before, after, hl, ha, hbefore⟩
    refine ⟨after.reverse, before.reverse, ?_, by simpa using ha, by simpa using hbefore⟩
    rw [← List.reverse_reverse l, hl]
    simp
  · rintro ⟨earlier, later, rfl, ha, hlater⟩
    exact ⟨later.reverse, earlier.reverse, by simp, by simpa using ha, by simpa using hlater⟩

theorem lookup_eq_some_iff {entries : List Element} :
    (ofElements config entries).lookup key = some value ↔
      ∃ earlier e later, entries = earlier ++ e :: later ∧ HasKey config key e ∧
        (∀ e ∈ later, ¬ HasKey config key e) ∧ HasValue config e value := by
  rw [lookup_ofElements, Option.map_eq_some_iff]
  simp only [getLast?_filter_iff, valueOf_eq_iff]
  constructor
  · rintro ⟨e, ⟨earlier, later, hentries, hkey, hlater⟩, hvalue⟩
    exact ⟨earlier, e, later, hentries, hkey, hlater, hvalue⟩
  · rintro ⟨earlier, e, later, hentries, hkey, hlater, hvalue⟩
    exact ⟨e, ⟨earlier, later, hentries, hkey, hlater⟩, hvalue⟩

theorem exists_lookup_iff {entries : List Element} :
    (∃ value, (ofElements config entries).lookup key = some value) ↔
      ∃ e ∈ entries, HasKey config key e := by
  rw [← Option.isSome_iff_exists, lookup_ofElements, Option.isSome_map, List.getLast?_isSome]
  simp

theorem not_hasKey (h : ∀ c ∈ e.children, ¬ config.isNamed .openSocial "key" c = true)
    (key : String) : ¬ HasKey config key e := by
  rw [HasKey, ← Config.text?_eq_some, Config.text?_eq_none.mpr h]
  nofun

/-- Entries without a key may come and go. -/
theorem ofElements_without_key {earlier later : List Element}
    (h : ∀ c ∈ e.children, ¬ config.isNamed .openSocial "key" c = true) :
    ofElements config (earlier ++ later) = ofElements config (earlier ++ e :: later) := by
  apply ofElements_congr
  intro key
  simp [not_hasKey h key]

theorem ofRoot_eq_ofElements {entries : List Element} (hentries : Entries config root entries)
    (hsome : entries ≠ []) : ofRoot config root = .ok (ofElements config entries) := by
  rw [ofRoot, entries_iff.mp hentries]
  cases entries with
  | nil => exact absurd rfl hsome
  | cons first rest => rfl

def codePoints (s : String) : List Nat :=
  s.toList.map Char.toNat

theorem codePoints_lt {s t : String} (h : s < t) : codePoints s < codePoints t :=
  List.map_lt (fun _ _ hlt => hlt) (String.lt_iff.mp h)

/-- The data of a document are the union of its entries. The last entry with a key gives the value,
so whichever entries come first are overridden by those after them, and the order of entries with
different keys does not matter. There is one pair for each key, in the order of the code points. -/
theorem ofRoot_union {entries : List Element} (hentries : Entries config root entries)
    (hsome : entries ≠ []) :
    ofRoot config root = .ok (ofElements config entries) ∧
    (∀ key, (∃ value, (key, value) ∈ (ofElements config entries).entries) ↔
      ∃ e ∈ entries, HasKey config key e) ∧
    (∀ key value, (key, value) ∈ (ofElements config entries).entries ↔
      ∃ earlier e later, entries = earlier ++ e :: later ∧ HasKey config key e ∧
        (∀ e ∈ later, ¬ HasKey config key e) ∧ HasValue config e value) ∧
    (∀ earlier later, entries = earlier ++ later → ∀ key,
      (ofElements config entries).lookup key =
        ((ofElements config later).lookup key).or ((ofElements config earlier).lookup key)) ∧
    (∀ root' entries', Entries config root' entries' → entries'.Perm entries →
      (∀ key, entries'.filter (HasKey config key ·) = entries.filter (HasKey config key ·)) →
      ofRoot config root' = ofRoot config root) ∧
    (∀ earlier e later, entries = earlier ++ e :: later →
      (∀ c ∈ e.children, ¬ config.isNamed .openSocial "key" c = true) →
      ofElements config (earlier ++ later) = ofElements config entries) ∧
    (∃ keys : Finset String, (∀ key, key ∈ keys ↔ ∃ e ∈ entries, HasKey config key e) ∧
      (ofElements config entries).entries.length = keys.card) ∧
    (ofElements config entries).entries.Pairwise fun a b => codePoints a.1 < codePoints b.1 := by
  have hkeys : ∀ key, (∃ value, (key, value) ∈ (ofElements config entries).entries) ↔
      ∃ e ∈ entries, HasKey config key e := by
    intro key
    simp only [mem_entries_iff]
    exact exists_lookup_iff
  refine ⟨ofRoot_eq_ofElements hentries hsome, hkeys, ?_, ?_, ?_, ?_, ?_, ?_⟩
  · intro key value
    rw [mem_entries_iff]
    exact lookup_eq_some_iff
  · rintro earlier later rfl key
    exact lookup_append earlier later key
  · intro root' entries' hentries' hperm hfilter
    have hsome' : entries' ≠ [] := fun h => hsome (List.nil_perm.mp (h ▸ hperm))
    rw [ofRoot_eq_ofElements hentries hsome, ofRoot_eq_ofElements hentries' hsome',
      ofElements_congr hfilter]
  · rintro earlier e later rfl hkey
    exact ofElements_without_key hkey
  · refine ⟨((ofElements config entries).entries.map Prod.fst).toFinset, ?_, ?_⟩
    · intro key
      rw [List.mem_toFinset, ← hkeys]
      simp
    · rw [List.toFinset_card_of_nodup (nodup_keys _), List.length_map]
  · exact (ofElements config entries).ascending.imp codePoints_lt

theorem ofRoot_union_sign :
    let sign (value : List Node) : Element :=
      ⟨⟨none, "entry"⟩, .element ⟨none, "key"⟩ [.text "sign"] :: value⟩
    let empty : Element := ⟨⟨none, "entry"⟩, [.element ⟨none, "key"⟩ []]⟩
    let virgo := sign [.element ⟨none, "value"⟩ [.text "Virgo"]]
    let root : Element := ⟨⟨none, "response"⟩, [virgo, empty, sign []].map Element.toNode⟩
    let root' : Element := ⟨⟨none, "response"⟩, [empty, virgo, sign []].map Element.toNode⟩
    ("sign", "") ∈ (ofElements {} [virgo, empty, sign []]).entries ∧
      ofRoot {} root' = ofRoot {} root := by
  intro sign empty virgo root root'
  have hentries : Entries {} root [virgo, empty, sign []] := .children (by decide)
  have hentries' : Entries {} root' [empty, virgo, sign []] := .children (by decide)
  obtain ⟨-, -, hmem, -, hreorder, -⟩ := ofRoot_union hentries (by simp)
  constructor
  · apply (hmem _ _).mpr
    refine ⟨[virgo, empty], sign [], [], rfl, ?_, by simp, .none (by decide)⟩
    exact Config.text?_eq_some.mp rfl
  · apply hreorder root' _ hentries' (.swap _ _ _)
    intro key
    have hvirgo : HasKey {} key virgo ↔ "sign" = key :=
      Config.text?_eq_some.symm.trans Option.some_inj
    have hempty : HasKey {} key empty ↔ "" = key :=
      Config.text?_eq_some.symm.trans Option.some_inj
    by_cases hkey : "" = key
    · have hother : ¬ HasKey {} key virgo := by
        rw [hvirgo, ← hkey]
        decide
      simp only [List.filter_cons, hother, decide_false, Bool.false_eq_true, if_false]
    · simp only [List.filter_cons, hempty, hkey, decide_false, Bool.false_eq_true, if_false]

end SocialPayload.AppData
