import SocialPayload.Convert
import SocialPayload.Proofs.MarkupExtents

namespace SocialPayload

namespace Xml

variable {s next rest : List Char}

/-- A step that leaves of a text what follows something, the same way whatever there is to follow
after the next `>`. -/
def LeavesAhead (skip : List Char → Except Fault (List Char)) : Prop :=
  ∀ s next rest, skip s = .ok (next ++ '>' :: rest) →
    ∃ front, s = front ++ (next ++ '>' :: rest) ∧
      ∀ rest', skip (front ++ (next ++ '>' :: rest')) = .ok (next ++ '>' :: rest')

namespace LeavesAhead

variable {skip skip' : List Char → Except Fault (List Char)}

theorem pure : LeavesAhead .ok := by
  intro s next rest h
  cases h
  exact ⟨[], rfl, fun _ => rfl⟩

theorem bind (h : LeavesAhead skip) (h' : LeavesAhead skip') :
    LeavesAhead fun s => skip s >>= skip' := by
  intro s next rest hs
  obtain ⟨s', hskip, hskip'⟩ := bind_eq_ok.mp hs
  obtain ⟨front', rfl, hread'⟩ := h' _ _ _ hskip'
  obtain ⟨front, rfl, hread⟩ := h s (front' ++ next) rest (by simpa using hskip)
  refine ⟨front ++ front', by simp, ?_⟩
  intro rest'
  have hskip := hread rest'
  simp only [List.append_assoc] at hskip ⊢
  rw [hskip]
  exact hread' rest'

/-- A step that is taken where a mark begins. -/
theorem ite {mark : List Char} (hmark : '>' ∉ mark.dropLast) (h : LeavesAhead skip)
    (h' : LeavesAhead skip') :
    LeavesAhead fun s => if mark.isPrefixOf s then skip s else skip' s := by
  intro s next rest hs
  dsimp only at hs ⊢
  split at hs
  · rename_i hbegins
    obtain ⟨front, rfl, hread⟩ := h s next rest hs
    refine ⟨front, rfl, ?_⟩
    intro rest'
    rw [← List.append_assoc, isPrefixOf_ahead hmark _ _ rest', List.append_assoc] at hbegins
    rw [if_pos hbegins, hread]
  · rename_i hbegins
    obtain ⟨front, rfl, hread⟩ := h' s next rest hs
    refine ⟨front, rfl, ?_⟩
    intro rest'
    rw [← List.append_assoc, isPrefixOf_ahead hmark _ _ rest', List.append_assoc] at hbegins
    rw [if_neg hbegins, hread]

theorem error (fault : List Char → Fault) : LeavesAhead fun s => .error (fault s) := by
  intro s next rest h
  cases h

end LeavesAhead

theorem expectMark_leavesAhead (mark : List Char) : LeavesAhead (expectMark mark) := by
  intro s next rest h
  exact ⟨mark, (expectMark_eq_ok.mp h).symm, fun rest' => expectMark_eq_ok.mpr rfl⟩

theorem skipSpaces_leavesAhead : LeavesAhead fun s => .ok (skipSpaces s) := by
  intro s next rest h
  obtain ⟨spaces, hs, -, hskip⟩ := skipSpaces_ahead _ (Except.ok.inj h)
  exact ⟨spaces, hs, fun rest' => congrArg Except.ok (hskip rest')⟩

theorem drop_leavesAhead (n : Nat) : LeavesAhead fun s => .ok (s.drop n) := by
  intro s next rest h
  have hdrop := Except.ok.inj h
  have hlength : n ≤ s.length := by
    have := congrArg List.length hdrop
    simp only [List.length_drop, List.length_append, List.length_cons] at this
    omega
  refine ⟨s.take n, ?_, ?_⟩
  · rw [← hdrop, List.take_append_drop]
  · intro rest'
    exact congrArg Except.ok (List.drop_left' (List.length_take_of_le hlength))

theorem skipByteOrderMark_cons (c : Char) (s : List Char) :
    skipByteOrderMark (c :: s) = if c = '\uFEFF' then s else c :: s := by
  unfold skipByteOrderMark
  split <;> simp_all

theorem skipByteOrderMark_leavesAhead : LeavesAhead fun s => .ok (skipByteOrderMark s) := by
  intro s next rest h
  simp only [Except.ok.injEq] at h ⊢
  cases s with
  | nil => cases next <;> cases h
  | cons c s =>
    rw [skipByteOrderMark_cons] at h
    split at h
    · rename_i hmark
      refine ⟨[c], by rw [h]; rfl, ?_⟩
      intro rest'
      rw [List.cons_append, skipByteOrderMark_cons, if_pos hmark]
      rfl
    · rename_i hmark
      refine ⟨[], h, ?_⟩
      intro rest'
      cases next with
      | nil => rfl
      | cons d next =>
        obtain ⟨rfl, -⟩ := List.cons.inj h
        rw [List.nil_append, List.cons_append, skipByteOrderMark_cons, if_neg hmark]

theorem skipDeclarationSpaces_eq_ok {left : List Char} (hne : s ≠ []) :
    skipDeclarationSpaces s = .ok left ↔
      (s.head?.any isSpace || instructionClose.isPrefixOf s) = true ∧ skipSpaces s = left := by
  cases s with
  | nil => exact absurd rfl hne
  | cons c s =>
    simp only [skipDeclarationSpaces, List.head?_cons, Option.any_some]
    split <;> simp_all

theorem skipDeclarationSpaces_leavesAhead : LeavesAhead skipDeclarationSpaces := by
  intro s next rest h
  have hne : s ≠ [] := by
    rintro rfl
    cases next <;> cases h
  obtain ⟨hgate, hskip⟩ := (skipDeclarationSpaces_eq_ok hne).mp h
  obtain ⟨spaces, rfl, -, hskip'⟩ := skipSpaces_ahead _ hskip
  refine ⟨spaces, rfl, ?_⟩
  intro rest'
  refine (skipDeclarationSpaces_eq_ok (by simp)).mpr ⟨?_, hskip' rest'⟩
  have hhead : (spaces ++ (next ++ '>' :: rest')).head? =
      (spaces ++ (next ++ '>' :: rest)).head? := by
    cases spaces <;> cases next <;> rfl
  rw [hhead]
  rwa [← List.append_assoc, isPrefixOf_ahead (by decide) _ _ rest', List.append_assoc,
    List.append_assoc] at hgate

/-- Reads an attribute of a declaration, which does not matter. -/
def skipAttribute (s : List Char) : Except Fault (List Char) := do
  let (_, s) ← readAttribute s
  return s

theorem skipAttribute_leavesAhead : LeavesAhead skipAttribute := by
  intro s next rest h
  simp only [skipAttribute, bind_eq_ok, pure_eq_ok] at h
  obtain ⟨⟨a, tail⟩, hread, rfl⟩ := h
  obtain ⟨c, front, quote, -, rfl, hread'⟩ := readAttribute_ahead hread
  refine ⟨c :: front ++ [quote], by simp, ?_⟩
  intro rest'
  have hattribute := hread' (next ++ '>' :: rest')
  simp only [List.append_assoc, List.cons_append, List.nil_append] at hattribute ⊢
  rw [skipAttribute, hattribute]
  rfl

def skipVersion (s : List Char) : Except Fault (List Char) :=
  if versionMark.isPrefixOf s then skipAttribute s
  else .error (.expectedText (String.ofList versionMark) s.length)

def skipEncoding (s : List Char) : Except Fault (List Char) :=
  if encodingMark.isPrefixOf s then skipAttribute s >>= skipDeclarationSpaces else pure s

def skipStandalone (s : List Char) : Except Fault (List Char) :=
  if standaloneMark.isPrefixOf s then skipAttribute s else pure s

theorem ite_bind {α β : Type} (p : Prop) [Decidable p] (x y : Except Fault α)
    (f : α → Except Fault β) : (if p then x else y) >>= f = if p then x >>= f else y >>= f := by
  split <;> rfl

theorem readDeclaration_eq (s : List Char) : readDeclaration s =
    (skipDeclarationSpaces s >>= skipVersion >>= skipDeclarationSpaces >>= skipEncoding >>=
      skipStandalone >>= (pure <| skipSpaces ·) >>= expectMark instructionClose) := by
  have hversion : ∀ s, skipVersion s = expectMark versionMark s >>= fun _ => skipAttribute s := by
    intro s
    rw [expectMark, skipVersion]
    split <;> rfl
  simp only [readDeclaration, hversion, skipEncoding, skipStandalone, skipAttribute, bind_assoc,
    pure_bind, ite_bind]

theorem readDeclaration_leavesAhead : LeavesAhead readDeclaration := by
  have hversion : LeavesAhead skipVersion :=
    .ite (by decide) skipAttribute_leavesAhead (.error _)
  have hencoding : LeavesAhead skipEncoding :=
    .ite (by decide) (skipAttribute_leavesAhead.bind skipDeclarationSpaces_leavesAhead) .pure
  have hstandalone : LeavesAhead skipStandalone :=
    .ite (by decide) skipAttribute_leavesAhead .pure
  have hspaces := skipDeclarationSpaces_leavesAhead
  have hread := (((((hspaces.bind hversion).bind hspaces).bind hencoding).bind hstandalone).bind
    skipSpaces_leavesAhead).bind (expectMark_leavesAhead instructionClose)
  rw [funext readDeclaration_eq]
  exact hread

theorem readMiscItem_ahead (h : readMiscItem s = .ok (some rest)) :
    ∃ front, s = front ++ '>' :: rest ∧
      ∀ rest', readMiscItem (front ++ '>' :: rest') = .ok (some rest') := by
  unfold readMiscItem at h
  split at h
  · rename_i hmark
    obtain ⟨⟨n, tail⟩, hread, hrest⟩ := map_eq_ok.mp h
    cases hrest
    obtain ⟨front, hfront, hread'⟩ := readComment_ahead hread
    have hs := eq_append_of_isPrefixOf hmark
    rw [hfront] at hs
    refine ⟨commentOpen ++ front, by simpa using hs, ?_⟩
    intro rest'
    change (readComment (front ++ '>' :: rest')).map (some ·.2) = _
    rw [hread']
    rfl
  split at h
  · rename_i hmark
    obtain ⟨⟨n, tail⟩, hread, hrest⟩ := map_eq_ok.mp h
    cases hrest
    obtain ⟨front, hfront, hread'⟩ := readInstruction_ahead hread
    have hs := eq_append_of_isPrefixOf hmark
    rw [hfront] at hs
    refine ⟨instructionOpen ++ front, by simpa using hs, ?_⟩
    intro rest'
    change (readInstruction (front ++ '>' :: rest')).map (some ·.2) = _
    rw [hread']
    rfl
  · cases h

theorem readMiscItem_eq_none : readMiscItem s = .ok none ↔
    commentOpen.isPrefixOf s = false ∧ instructionOpen.isPrefixOf s = false := by
  unfold readMiscItem
  split
  · rename_i hmark
    cases readComment (s.drop commentOpen.length) <;> simp [hmark, Except.map]
  · split
    · rename_i hmark
      cases readInstruction (s.drop instructionOpen.length) <;> simp [hmark, Except.map]
    · rename_i hcomment hinstruction
      simp [Bool.eq_false_iff.mpr hcomment, Bool.eq_false_iff.mpr hinstruction]

theorem readMisc_item (h : readMiscItem (skipSpaces s) = .ok (some rest)) :
    readMisc s = readMisc rest := by
  rw [readMisc]
  split <;> simp_all

theorem readMisc_end (h : readMiscItem (skipSpaces s) = .ok none) :
    readMisc s = .ok (skipSpaces s) := by
  rw [readMisc]
  split <;> simp_all

theorem readMisc_leavesAhead : LeavesAhead readMisc := by
  intro s next rest h
  fun_induction readMisc s with
  | case1 => cases h
  | case2 s hitem =>
    have hskip := Except.ok.inj h
    obtain ⟨spaces, rfl, -, hskip'⟩ := skipSpaces_ahead _ hskip
    refine ⟨spaces, rfl, ?_⟩
    intro rest'
    have hnone : readMiscItem (next ++ '>' :: rest') = .ok none := by
      rw [hskip, readMiscItem_eq_none] at hitem
      rw [readMiscItem_eq_none, isPrefixOf_ahead (by decide) next rest' rest,
        isPrefixOf_ahead (by decide) next rest' rest]
      exact hitem
    rw [readMisc_end (by rw [hskip', hnone]), hskip']
  | case3 s tail hitem ih =>
    obtain ⟨front', rfl, hrest⟩ := ih h
    obtain ⟨front, hskip, hitem'⟩ := readMiscItem_ahead hitem
    obtain ⟨spaces, rfl, -, hskip'⟩ := skipSpaces_ahead _ hskip
    refine ⟨spaces ++ front ++ '>' :: front', by simp, ?_⟩
    intro rest'
    have hmisc : readMisc (spaces ++ (front ++ '>' :: (front' ++ (next ++ '>' :: rest')))) =
        readMisc (front' ++ (next ++ '>' :: rest')) :=
      readMisc_item (by rw [hskip', hitem'])
    rw [hrest] at hmisc
    simpa using hmisc

def skipDeclaration (s : List Char) : Except Fault (List Char) :=
  if (declarationOpen ++ [' ']).isPrefixOf s then
    pure (s.drop declarationOpen.length) >>= readDeclaration
  else pure s

def refuseDoctype (s : List Char) : Except Fault (List Char) :=
  if doctypeOpen.isPrefixOf s then .error .doctype else pure s

theorem readProlog_eq (s : List Char) : readProlog s =
    (pure (skipByteOrderMark s) >>= skipDeclaration >>= readMisc >>= refuseDoctype) := by
  simp only [readProlog, skipDeclaration, bind_assoc, pure_bind, ite_bind]
  rfl

theorem readProlog_leavesAhead : LeavesAhead readProlog := by
  have hdeclaration : LeavesAhead skipDeclaration :=
    .ite (by decide) ((drop_leavesAhead _).bind readDeclaration_leavesAhead) .pure
  have hdoctype : LeavesAhead refuseDoctype := .ite (by decide) (.error _) .pure
  have hread := ((skipByteOrderMark_leavesAhead.bind hdeclaration).bind readMisc_leavesAhead).bind
    hdoctype
  rw [funext readProlog_eq]
  exact hread

/-- Whether a text is parted where its root element ends, after the last tag of that element. -/
def EndsRoot (body epilog : List Char) : Prop :=
  ∃ start root, readProlog (body ++ epilog) = .ok start ∧ readRoot start = .ok (some root, epilog)

/-- What a prolog and a root are read from ends in `>`, and is read so whatever follows. -/
theorem readRoot_of_readProlog {start : List Char} {root : Element}
    (hprolog : readProlog s = .ok start) (hroot : readRoot start = .ok (some root, rest)) :
    ∃ front, s = front ++ '>' :: rest ∧ ∀ rest', ∃ start',
      readProlog (front ++ '>' :: rest') = .ok start' ∧
        readRoot start' = .ok (some root, rest') := by
  obtain ⟨front', rfl, hroot'⟩ := readRoot_ahead hroot
  obtain ⟨front, rfl, hprolog'⟩ := readProlog_leavesAhead _ _ _ hprolog
  refine ⟨front ++ front', by simp, ?_⟩
  intro rest'
  refine ⟨front' ++ '>' :: rest', ?_, hroot' rest'⟩
  rw [List.append_assoc, hprolog']

theorem EndsRoot.epilog_eq {body body' epilog epilog' : List Char} (h : EndsRoot body epilog)
    (h' : EndsRoot body' epilog') (heq : body ++ epilog = body' ++ epilog') :
    epilog = epilog' := by
  obtain ⟨start, root, hprolog, hroot⟩ := h
  obtain ⟨start', root', hprolog', hroot'⟩ := h'
  rw [heq, hprolog'] at hprolog
  cases hprolog
  rw [hroot'] at hroot
  cases hroot
  rfl

/-- A document ends its root, and would be the same if it ended there. -/
theorem Document.parse_endsRoot {text : String} {document : Document}
    (h : Document.parse text = .ok document) :
    ∃ front epilog, text.toList = front ++ '>' :: epilog ∧
      (∀ epilog', EndsRoot (front ++ ['>']) epilog') ∧
      Document.parse (String.ofList (front ++ ['>'])) = .ok document := by
  rw [Document.parse_eq_ok, readDocument_eq_ok] at h
  obtain ⟨start, epilog, hprolog, hroot, -⟩ := h
  obtain ⟨front, htext, hread⟩ := readRoot_of_readProlog hprolog hroot
  refine ⟨front, epilog, htext, ?_, ?_⟩
  · intro epilog'
    obtain ⟨start', hprolog', hroot'⟩ := hread epilog'
    exact ⟨start', document.root, by simpa using hprolog', hroot'⟩
  · obtain ⟨start', hprolog', hroot'⟩ := hread []
    rw [Document.parse_eq_ok, readDocument_eq_ok, String.toList_ofList]
    exact ⟨start', [], hprolog', hroot', readEpilog_nil⟩

/-- A text that has been cut off before the end of the root is no document. -/
theorem Document.parse_cut {front epilog cut : List Char} (h : EndsRoot (front ++ ['>']) epilog)
    (hcut : cut <+: front) : ∃ fault, Document.parse (String.ofList cut) = .error fault := by
  cases hparse : Document.parse (String.ofList cut) with
  | error fault => exact ⟨fault, rfl⟩
  | ok document =>
    obtain ⟨front', epilog', hfront', hends, -⟩ := Document.parse_endsRoot hparse
    obtain ⟨tail, rfl⟩ := hcut
    rw [String.toList_ofList] at hfront'
    have hepilog := h.epilog_eq (hends (epilog' ++ tail ++ '>' :: epilog)) (by simp [hfront'])
    have hlength := congrArg List.length hepilog
    simp only [List.length_append, List.length_cons] at hlength
    omega

end Xml

open Xml (EndsRoot Document)

/-- A payload that has been cut off is refused as no document, whatever was to be found in it: of a
text that is a document, every part from its beginning that ends before the last `>` of the root
element. What follows the root may be missing. -/
theorem Record.ofText_truncated {text : String}
    (h : ∃ kind config, ∀ fault, Record.ofText kind config text ≠ .error (.invalidXml fault)) :
    ∃ front epilog, text.toList = front ++ '>' :: epilog ∧ EndsRoot (front ++ ['>']) epilog ∧
      Document.parse (String.ofList (front ++ ['>'])) = Document.parse text ∧
      ∀ cut, cut <+: front → ∀ kind config,
        ∃ fault, Record.ofText kind config (String.ofList cut) = .error (.invalidXml fault) := by
  obtain ⟨kind, config, haccepted⟩ := h
  cases hparse : Document.parse text with
  | error fault =>
    rw [Record.ofText, hparse] at haccepted
    exact absurd rfl (haccepted fault)
  | ok document =>
    obtain ⟨front, epilog, htext, hends, hbody⟩ := Document.parse_endsRoot hparse
    refine ⟨front, epilog, htext, hends epilog, hbody, ?_⟩
    intro cut hcut kind config
    obtain ⟨fault, hfault⟩ := Document.parse_cut (hends epilog) hcut
    exact ⟨fault, by rw [Record.ofText, hfault]⟩

theorem Record.ofText_truncated_endTag :
    (∀ fault, Record.ofText .people {} "<person><id>1</id></person><!-- > -->" ≠
      .error (.invalidXml fault)) ∧
    ∀ kind config, ∃ fault,
      Record.ofText kind config "<person><id>1</id></person" = .error (.invalidXml fault) := by
  have haccepted : ∀ fault, Record.ofText .people {} "<person><id>1</id></person><!-- > -->" ≠
      .error (.invalidXml fault) := by
    have hread : (Record.ofText .people {} "<person><id>1</id></person><!-- > -->").toOption =
        some (.person { id := some "1" }) := by decide +kernel
    intro fault h
    rw [h] at hread
    cases hread
  have hroot : EndsRoot "<person><id>1</id></person>".toList "<!-- > -->".toList := by
    have hprolog : (Xml.readProlog "<person><id>1</id></person><!-- > -->".toList).toOption =
        some "<person><id>1</id></person><!-- > -->".toList := by decide +kernel
    have hread : (Xml.readRoot "<person><id>1</id></person><!-- > -->".toList).toOption.map
        (fun read => (read.1.isSome, read.2)) = some (true, "<!-- > -->".toList) := by
      decide +kernel
    obtain ⟨⟨root, rest⟩, hread, hrest⟩ := Option.map_eq_some_iff.mp hread
    obtain ⟨hsome, rfl⟩ := Prod.mk.inj hrest
    obtain ⟨root, rfl⟩ := Option.isSome_iff_exists.mp hsome
    exact ⟨_, root, Xml.toOption_eq_some.mp hprolog, Xml.toOption_eq_some.mp hread⟩
  refine ⟨haccepted, ?_⟩
  obtain ⟨front, epilog, htext, hends, -, hcut⟩ := Record.ofText_truncated ⟨_, _, haccepted⟩
  have hepilog : epilog = "<!-- > -->".toList :=
    hends.epilog_eq hroot (by simpa using htext.symm)
  have hfront : front = "<person><id>1</id></person".toList := by
    subst hepilog
    exact List.append_cancel_right htext.symm
  subst hfront
  intro kind config
  exact hcut _ (List.prefix_refl _) kind config

end SocialPayload
