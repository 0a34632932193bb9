import Mathlib.Data.List.Basic
import Mathlib.Tactic.Choose
import SocialPayload.Proofs.Locality
import SocialPayload.Proofs.Refusals

namespace SocialPayload

open Xml (Element ExpandedName Node)

namespace Xml.Element

/-- The element that a path leads to. Each step of a path is the position of a child. -/
def at? : List Nat → Element → Option Element
  | [], e => some e
  | i :: path, e => e.children[i]?.bind (at? path)

/-- The paths in an element, a path before those that go on from it, are in the order of the start
tags that they lead to. -/
theorem exists_paths (e : Element) : ∃ paths : List (List Nat), paths.Pairwise (· < ·) ∧
    (∀ path, path ∈ paths ↔ (at? path e).isSome) ∧
    paths.map (at? · e) = e.elements.map some := by
  induction e using Element.induction with
  | step e ih =>
    choose! inside hsorted hmem hmap using ih
    have hchild : ∀ p ∈ e.children.zipIdx, e.children[p.2]? = some p.1 := by
      intro p hp
      exact List.mem_zipIdx_iff_getElem?.mp hp
    have hinside : ∀ p ∈ e.children.zipIdx, p.1 ∈ e.children := fun p hp =>
      List.mem_of_getElem? (hchild p hp)
    refine ⟨[] :: e.children.zipIdx.flatMap fun p => (inside p.1).map (p.2 :: ·), ?_, ?_, ?_⟩
    · have hpositions : e.children.zipIdx.Pairwise (·.2 < ·.2) := by
        rw [← List.pairwise_map, List.zipIdx_map_snd]
        exact List.pairwise_lt_range'
      refine List.pairwise_cons.mpr ⟨?_, List.pairwise_flatMap.mpr ⟨?_, ?_⟩⟩
      · intro path hpath
        obtain ⟨p, -, hpath⟩ := List.mem_flatMap.mp hpath
        obtain ⟨rest, -, rfl⟩ := List.mem_map.mp hpath
        exact List.nil_lt_cons _ _
      · intro p hp
        rw [List.pairwise_map]
        exact (hsorted p.1 (hinside p hp)).imp fun hlt =>
          List.cons_lt_cons_iff.mpr (.inr ⟨rfl, hlt⟩)
      · apply hpositions.imp
        intro p p' hlt path hpath path' hpath'
        obtain ⟨rest, -, rfl⟩ := List.mem_map.mp hpath
        obtain ⟨rest', -, rfl⟩ := List.mem_map.mp hpath'
        exact List.cons_lt_cons_iff.mpr (.inl hlt)
    · intro path
      cases path with
      | nil => simp [at?]
      | cons i rest =>
        simp only [at?, Option.isSome_bind, List.mem_cons, reduceCtorEq, false_or, List.mem_flatMap,
          List.mem_map, List.cons.injEq]
        constructor
        · rintro ⟨p, hp, rest, hrest, rfl, rfl⟩
          rw [hchild p hp]
          exact (hmem p.1 (hinside p hp) rest).mp hrest
        · intro h
          cases hc : e.children[i]? with
          | none =>
            rw [hc] at h
            cases h
          | some c =>
            rw [hc] at h
            exact ⟨(c, i), List.mem_zipIdx_iff_getElem?.mpr hc, rest,
              (hmem c (List.mem_of_getElem? hc) rest).mpr h, rfl, rfl⟩
    · have hstep : ∀ p ∈ e.children.zipIdx,
          ((inside p.1).map (p.2 :: ·)).map (at? · e) = p.1.elements.map some := by
        intro p hp
        rw [List.map_map, ← hmap p.1 (hinside p hp)]
        apply List.map_congr_left
        intro rest _
        simp [at?, hchild p hp]
      have hchildren : e.children.flatMap elements =
          e.children.zipIdx.flatMap fun p => p.1.elements := by
        rw [← List.flatMap_map Prod.fst, List.zipIdx_map_fst]
      rw [List.map_cons, elements_eq, List.map_cons, hchildren, List.map_flatMap, List.map_flatMap,
        List.flatMap_congr hstep]
      rfl

end Xml.Element

theorem insertIdx_append {α : Type} (l l' : List α) (a : α) :
    (l ++ l').insertIdx l.length a = l ++ a :: l' := by
  induction l with
  | nil => rfl
  | cons b l ih => exact congrArg (b :: ·) ih

/-- A way to part the content of an element in two, between nodes or inside a run of text. -/
inductive Parted : List Node → List Node → List Node → Prop
  | between (before after : List Node) : Parted (before ++ after) before after
  | within (before after : List Node) (s t : String) :
      Parted (before ++ .text (s ++ t) :: after) (before ++ [.text s]) (.text t :: after)

namespace Parted

variable {content before after : List Node}

theorem children (h : Parted content before after) :
    content.filterMap Node.element? =
      before.filterMap Node.element? ++ after.filterMap Node.element? := by
  cases h with
  | between => exact List.filterMap_append
  | within =>
    rw [List.filterMap_append, List.filterMap_append, List.append_assoc]
    rfl

theorem characters (h : Parted content before after) :
    content.flatMap Node.characters =
      before.flatMap Node.characters ++ after.flatMap Node.characters := by
  cases h with
  | between => exact List.flatMap_append
  | within => simp

theorem elementsOf (h : Parted content before after) :
    Node.elementsOf content = Node.elementsOf before ++ Node.elementsOf after := by
  rw [Node.elementsOf_eq, Node.elementsOf_eq, Node.elementsOf_eq, h.children, List.flatMap_append]

end Parted

variable {config : Config} {new e e' : Element} {k : Nat}

/-- How many recipients begin in an element before a position in it, the element itself included. -/
def recipientsBegun (config : Config) (name : ExpandedName) (before : List Node) : Nat :=
  (⟨name, before⟩ : Element).elements.countP (config.isNamed .osapi "recipient")

/-- An element, the same with another one put into it, and the number of recipients that begin
before that one. -/
inductive Inserted (config : Config) (new : Element) : Element → Element → Nat → Prop
  | here (name : ExpandedName) {content before after : List Node}
      (parted : Parted content before after) :
      Inserted config new ⟨name, content⟩ ⟨name, before ++ new.toNode :: after⟩
        (recipientsBegun config name before)
  | inside (envelope : Envelope) {e e' : Element} {k : Nat}
      (inserted : Inserted config new e e' k) :
      Inserted config new (envelope.around e) (envelope.around e')
        (recipientsBegun config envelope.name envelope.before + k)

namespace Inserted

theorem name_eq (h : Inserted config new e e' k) : e'.name = e.name := by
  cases h <;> rfl

theorem text_eq (h : Inserted config new e e' k) : e'.text = e.text := by
  cases h with
  | here name parted => simp [Element.text, parted.characters]
  | inside envelope => exact envelope.text_around _ _

/-- A new element is no text of the element that it is put into, unless it is what is looked for. -/
theorem text?_eq (h : Inserted config new e e' k) {name : String}
    (hnew : config.isNamed .openSocial name new = false) :
    config.text? name e' = config.text? name e := by
  cases h with
  | here _ parted =>
    simp [Config.text?, Config.child?, Element.children, parted.children, List.find?_append, hnew]
  | inside envelope inserted =>
    exact envelope.text?_around inserted.name_eq fun _ => inserted.text_eq

end Inserted

namespace Message

/-- The texts of the recipients in a list of elements. -/
def recipientTexts (config : Config) (es : List Element) : List String :=
  (es.filter (config.isNamed .osapi "recipient")).map Element.text

theorem recipientTexts_append (es es' : List Element) :
    recipientTexts config (es ++ es') = recipientTexts config es ++ recipientTexts config es' := by
  simp [recipientTexts]

theorem recipientTexts_cons_congr (hname : e'.name = e.name) (htext : e'.text = e.text)
    (es : List Element) : recipientTexts config (e' :: es) = recipientTexts config (e :: es) := by
  rw [recipientTexts, recipientTexts, List.filter_cons, List.filter_cons,
    Config.isNamed_congr hname]
  split
  · rw [List.map_cons, List.map_cons, htext]
  · rfl

/-- The recipients that begin in an element before a position in it come first, the element itself
before the others. -/
theorem recipientsOf_parted {name : ExpandedName} {content before : List Node}
    {rest : List Element} (h : Node.elementsOf content = Node.elementsOf before ++ rest) :
    recipientsOf config ⟨name, content⟩ =
      recipientTexts config (⟨name, content⟩ :: Node.elementsOf before) ++
        recipientTexts config rest := by
  rw [recipientsOf, Element.elements, Element.toNode, Node.elements, h, ← List.cons_append]
  exact recipientTexts_append _ _

theorem recipientsOf_around (envelope : Envelope) (e : Element) :
    recipientsOf config (envelope.around e) =
      recipientTexts config (envelope.around e :: Node.elementsOf envelope.before) ++
        (recipientsOf config e ++ recipientTexts config (Node.elementsOf envelope.after)) := by
  rw [Envelope.around, recipientsOf_parted (Node.elementsOf_around _ _ e), recipientTexts_append]
  rfl

theorem length_recipientTexts (name : ExpandedName) (content before : List Node) :
    (recipientTexts config (⟨name, content⟩ :: Node.elementsOf before)).length =
      recipientsBegun config name before := by
  rw [recipientTexts, List.length_map, ← List.countP_eq_length_filter, recipientsBegun]
  rfl

/-- A recipient without recipients inside. -/
structure IsLoneRecipient (config : Config) (e : Element) : Prop where
  itself : config.isNamed .osapi "recipient" e = true
  inside : ∀ c ∈ e.children, ∀ d ∈ c.elements, ¬ config.isNamed .osapi "recipient" d = true

theorem IsLoneRecipient.recipientsOf_eq (h : IsLoneRecipient config new) :
    recipientsOf config new = [new.text] := by
  have hinside : (new.children.flatMap Element.elements).filter
      (config.isNamed .osapi "recipient") = [] := by
    apply List.filter_eq_nil_iff.mpr
    intro d hd
    obtain ⟨c, hc, hd⟩ := List.mem_flatMap.mp hd
    exact h.inside c hc d hd
  rw [recipientsOf, Element.elements_eq, List.filter_cons, if_pos h.itself, hinside]
  rfl

theorem IsLoneRecipient.isNamed_openSocial (h : IsLoneRecipient config new) {name : String}
    (hname : name ≠ "recipient") : config.isNamed .openSocial name new = false := by
  have hrecipient := h.itself
  rw [Config.isNamed, Bool.and_eq_true, beq_iff_eq] at hrecipient
  rw [Config.isNamed, hrecipient.1, beq_false_of_ne hname.symm, Bool.false_and]

/-- A new recipient stands in the list after those that begin before it. -/
theorem recipientsOf_inserted (hnew : IsLoneRecipient config new)
    (h : Inserted config new e e' k) : ∃ earlier later,
      recipientsOf config e = earlier ++ later ∧
      recipientsOf config e' = earlier ++ new.text :: later ∧ earlier.length = k := by
  induction h with
  | @here name content before after parted =>
    have hwhole : Inserted config new _ _ _ := .here name parted
    refine ⟨recipientTexts config (⟨name, content⟩ :: Node.elementsOf before),
      recipientTexts config (Node.elementsOf after), recipientsOf_parted parted.elementsOf, ?_,
      length_recipientTexts name content before⟩
    rw [← recipientTexts_cons_congr hwhole.name_eq hwhole.text_eq]
    refine (recipientsOf_around ⟨name, before, after⟩ new).trans ?_
    rw [hnew.recipientsOf_eq]
    rfl
  | @inside envelope e e' k inserted ih =>
    obtain ⟨earlier, later, he, he', hlength⟩ := ih
    have hwhole := Inserted.inside envelope inserted
    refine ⟨recipientTexts config (envelope.around e :: Node.elementsOf envelope.before) ++ earlier,
      later ++ recipientTexts config (Node.elementsOf envelope.after), ?_, ?_, ?_⟩
    · rw [recipientsOf_around, he]
      simp only [List.append_assoc]
    · rw [recipientsOf_around, he', recipientTexts_cons_congr hwhole.name_eq hwhole.text_eq]
      simp only [List.append_assoc, List.cons_append]
    · rw [List.length_append, hlength]
      exact congrArg (· + k) (length_recipientTexts envelope.name _ envelope.before)

theorem ofRoot_of_recipients {root : Element} (h : recipientsOf config root ≠ []) :
    ofRoot config root = .ok ⟨config.text? "id" root, config.text? "title" root,
      config.text? "body" root, recipientsOf config root⟩ := by
  rw [ofRoot]
  apply if_neg
  intro heq
  rw [mk.injEq] at heq
  exact h heq.2.2.2

/-- The elements of the recipients of a message, by the paths to them. -/
theorem exists_recipient_paths (root : Element) : ∃ paths : List (List Nat),
    paths.Pairwise (· < ·) ∧
    (∀ path, path ∈ paths ↔ ∃ e, Element.at? path root = some e ∧
      config.isNamed .osapi "recipient" e = true) ∧
    (recipientsOf config root).map some =
      paths.map fun path => (Element.at? path root).map Element.text := by
  obtain ⟨paths, hsorted, hmem, hmap⟩ := root.exists_paths
  let isRecipient (path : List Nat) : Bool :=
    (Element.at? path root).any (config.isNamed .osapi "recipient")
  refine ⟨paths.filter isRecipient, hsorted.filter _, ?_, ?_⟩
  · intro path
    rw [List.mem_filter, hmem]
    cases hpath : Element.at? path root with
    | none => simp
    | some e => simp [isRecipient, hpath]
  · have hkept : (paths.filter isRecipient).map (Element.at? · root) =
        (root.elements.filter (config.isNamed .osapi "recipient")).map some := by
      calc
        _ = (paths.map (Element.at? · root)).filter
              (Option.any (config.isNamed .osapi "recipient")) := List.filter_map.symm
        _ = (root.elements.map some).filter
              (Option.any (config.isNamed .osapi "recipient")) := by rw [hmap]
        _ = (root.elements.filter (config.isNamed .osapi "recipient")).map some := List.filter_map
    have htexts := congrArg (List.map (Option.map Element.text)) hkept
    rw [List.map_map, List.map_map] at htexts
    rw [recipientsOf, List.map_map]
    exact htexts.symm

/-- A message has one recipient for each element that is named so, wherever it stands, in the order
of the start tags. A new one is put in its place among them, and nothing else of the message is
changed by it. -/
theorem ofRoot_recipients (config : Config) (root : Element) :
    (∀ message, ofRoot config root = .ok message → ∃ paths : List (List Nat),
      paths.Pairwise (· < ·) ∧
      (∀ path, path ∈ paths ↔ ∃ e, Element.at? path root = some e ∧
        config.isNamed .osapi "recipient" e = true) ∧
      message.recipients.map some =
        paths.map fun path => (Element.at? path root).map Element.text) ∧
    ∀ new root' k, IsLoneRecipient config new → Inserted config new root root' k →
      (∀ message, ofRoot config root = .ok message → k ≤ message.recipients.length ∧
        ofRoot config root' =
          .ok { message with recipients := message.recipients.insertIdx k new.text }) ∧
      ∀ error, ofRoot config root = .error error →
        ofRoot config root' = .ok { recipients := [new.text] } := by
  constructor
  · intro message h
    rw [eq_of_ofRoot h]
    exact exists_recipient_paths root
  · intro new root' k hnew hinserted
    obtain ⟨earlier, later, hold, hlist, hlength⟩ := recipientsOf_inserted hnew hinserted
    have htext : ∀ name, name ≠ "recipient" →
        config.text? name root' = config.text? name root := fun name hname =>
      hinserted.text?_eq (hnew.isNamed_openSocial hname)
    have hresult : ofRoot config root' = .ok ⟨config.text? "id" root, config.text? "title" root,
        config.text? "body" root, earlier ++ new.text :: later⟩ := by
      rw [ofRoot_of_recipients (by simp [hlist]), hlist, htext _ (by decide), htext _ (by decide),
        htext _ (by decide)]
    constructor
    · intro message h
      rw [eq_of_ofRoot h, hresult, hold, ← hlength, insertIdx_append]
      exact ⟨by simp, rfl⟩
    · intro error h
      cases ofRoot_eq_error.mp h with
      | noEntity searched none => exact absurd rfl searched.2
      | noField none noRecipient =>
        rw [recipientsOf_eq_nil.mpr noRecipient, eq_comm, List.append_eq_nil_iff] at hold
        have hnone : ∀ name ∈ ["id", "title", "body"], config.text? name root = Option.none :=
          fun name hname => Config.text?_eq_none.mpr fun c hc => none c hc name hname
        rw [hresult, hnone _ (by simp), hnone _ (by simp), hnone _ (by simp), hold.1, hold.2]
        rfl

theorem ofRoot_recipients_title :
    let config : Config := { namespaces := { openSocial := "urn:x", osapi := "urn:x" } }
    let recipient (text : String) : Element := ⟨⟨some "urn:x", "recipient"⟩, [.text text]⟩
    let title (content : List Node) : Node := .element ⟨some "urn:x", "title"⟩ content
    ofRoot config ⟨⟨none, "message"⟩, [title [.text "a", (recipient "2").toNode, .text "b"],
        (recipient "1").toNode]⟩ = .ok { title := some "ab", recipients := ["2", "1"] } ∧
      ofRoot config ⟨⟨none, "message"⟩, [(recipient "2").toNode]⟩ =
        .ok { recipients := ["2"] } := by
  intro config recipient title
  have hnew : IsLoneRecipient config (recipient "2") := ⟨rfl, nofun⟩
  have hinside : Inserted config (recipient "2") _ _ _ :=
    .inside ⟨⟨none, "message"⟩, [], [(recipient "1").toNode]⟩
      (.here ⟨some "urn:x", "title"⟩ (.within [] [] "a" "b"))
  have hhere : Inserted config (recipient "2") _ _ _ := .here ⟨none, "message"⟩ (.between [] [])
  constructor
  · exact (((ofRoot_recipients config _).2 _ _ _ hnew hinside).1 _ rfl).2
  · exact ((ofRoot_recipients config _).2 _ _ _ hnew hhere).2 _ rfl

end Message

end SocialPayload
