import ModulePath.Proofs.FileSystem.Tree
import ModulePath.Proofs.Layers.Properties
import ModulePath.Proofs.Layers.Success

/-!
# Overlays that are registered

A registration lists names line by line (`Registers`): a line holds at most one name, with blanks
around it and tabulators anywhere, and lines end in any terminators. So every text registers some
names, and they are what is read from it (`registers_registeredNames`,
`registeredNames_of_registers`).

The overlays of a directory are the directories of these names in order, a name that is registered
twice among them. The first line that is bad decides how the search for overlays fails
(`BadLine`, `overlays_registered`).
-/

set_option autoImplicit false

namespace ModulePath.Layers

open Properties (IsSpace)
open Text (IsLine Written isBlank trim)

variable {fs : FileSystem} {layout : Layout} {dir registration : Path} {name : String}
  {names : List String} {text : String} {cs ds line : List Char}

/-! ## Writing a registration -/

/-- A text that can be registered as a name, whether or not it is a valid one. -/
structure CanStand (name : String) : Prop where
  ne_empty : name ≠ ""
  noTab : '\t' ∉ name.toList
  isLine : IsLine name.toList
  trimmed : trim name.toList = name.toList

/-- A text with tabulators anywhere in it. -/
inductive Tabbed : List Char → List Char → Prop
  | nil : Tabbed [] []
  | char {cs ds : List Char} (c : Char) (h : Tabbed cs ds) : Tabbed (c :: cs) (c :: ds)
  | tab {cs ds : List Char} (h : Tabbed cs ds) : Tabbed cs ('\t' :: ds)

/-- A line of a registration: a name, or nothing but blanks. -/
inductive RegistersLine : List String → List Char → Prop
  | name {name : String} {before tabbed after : List Char} (hname : CanStand name)
    (hbefore : IsSpace before) (htabbed : Tabbed name.toList tabbed) (hafter : IsSpace after) :
    RegistersLine [name] (before ++ (tabbed ++ after))
  | blank {line : List Char} (h : IsSpace line) : RegistersLine [] line

/-- A text that registers names, one a line. -/
abbrev Registers (names : List String) (cs : List Char) : Prop := Written RegistersLine names cs

/-! ## Reading a line -/

theorem Tabbed.filter_eq (h : Tabbed cs ds) (htab : '\t' ∉ cs) : ds.filter (· ≠ '\t') = cs := by
  induction h with
  | nil => rfl
  | char c h ih =>
    rw [List.mem_cons, not_or] at htab
    rw [List.filter_cons_of_pos (by simpa using Ne.symm htab.1), ih htab.2]
  | tab h ih =>
    rw [List.filter_cons_of_neg (by simp), ih htab]

theorem tabbed_filter (cs : List Char) : Tabbed (cs.filter (· ≠ '\t')) cs := by
  induction cs with
  | nil => exact .nil
  | cons c cs ih =>
    by_cases hc : c = '\t'
    · subst hc
      rw [List.filter_cons_of_neg (by simp)]
      exact .tab ih
    · rw [List.filter_cons_of_pos (by simpa using hc)]
      exact .char c ih

/-- Tabs make no line break. -/
theorem Tabbed.isLine (h : Tabbed cs ds) (hcs : IsLine cs) : IsLine ds := by
  induction h with
  | nil => exact List.forall_mem_nil _
  | char c h ih =>
    obtain ⟨hc, hrest⟩ := List.forall_mem_cons.1 hcs
    exact List.forall_mem_cons.2 ⟨hc, ih hrest⟩
  | tab h ih => exact List.forall_mem_cons.2 ⟨by decide, ih hcs⟩

/-- There are no carriage returns within a line, so only tabulators are left out. -/
theorem registeredName_of_isLine (h : IsLine line) :
    registeredName line = trim (line.filter (· ≠ '\t')) := by
  have hreturn : ∀ c ∈ line, c ≠ '\r' := by
    rintro c hc rfl
    exact absurd (h _ hc) (by decide)
  have hfilter : (line.filter fun c => c ≠ '\t' && c ≠ '\r') = line.filter (· ≠ '\t') := by
    apply List.filter_congr
    intro c hc
    simp [hreturn c hc]
  rw [registeredName, hfilter]

theorem isSpace_filter (h : IsSpace cs) (p : Char → Bool) : IsSpace (cs.filter p) :=
  fun c hc => h c (List.mem_filter.1 hc).1

/-- The name in a line, if there is one. -/
def readName (line : List Char) : List String :=
  if registeredName line = [] then [] else [String.ofList (registeredName line)]

/-- A line of blanks registers nothing. -/
theorem registeredName_of_isSpace (h : IsSpace line) : registeredName line = [] := by
  have hkept : IsSpace (line.filter fun c => c ≠ '\t' && c ≠ '\r') := isSpace_filter h _
  have hblank (cs : List Char) (h : IsSpace cs) : trim (cs ++ []) = [] :=
    Properties.trim_append h nofun
  rw [registeredName, ← List.append_nil (List.filter _ _), hblank _ hkept]

theorem RegistersLine.isLine (h : RegistersLine names line) : IsLine line := by
  cases h with
  | name hname hbefore htabbed hafter =>
    simp only [Text.isLine_append]
    exact ⟨hbefore.isLine, htabbed.isLine hname.isLine, hafter.isLine⟩
  | blank h => exact h.isLine

/-- Whatever blanks and tabulators there are, the name in a line is read. -/
theorem readName_of_registersLine (h : RegistersLine names line) : readName line = names := by
  have hline : IsLine line := h.isLine
  cases h with
  | blank h => rw [readName, if_pos (registeredName_of_isSpace h)]
  | @name name before tabbed after hname hbefore htabbed hafter =>
    have hne : name.toList ≠ [] := String.toList_eq_nil_iff.not.2 hname.ne_empty
    have hkept : (before ++ (tabbed ++ after)).filter (· ≠ '\t') =
        before.filter (· ≠ '\t') ++ (name.toList ++ after.filter (· ≠ '\t')) := by
      rw [List.filter_append, List.filter_append, htabbed.filter_eq hname.noTab]
    have hfirst : ∀ c ∈ (name.toList ++ after.filter (· ≠ '\t')).head?, isBlank c = false := by
      rw [List.head?_append_of_ne_nil _ hne]
      exact Text.isBlank_head?_of_trim hname.trimmed
    have hlast : ∀ c ∈ name.toList.getLast?, isBlank c = false :=
      Text.isBlank_getLast?_of_trim hname.trimmed
    have hblank : Text.dropEndWhile isBlank (after.filter (· ≠ '\t')) = [] :=
      Text.dropEndWhile_of_forall (isSpace_filter hafter _).isBlank
    have hread : registeredName (before ++ (tabbed ++ after)) = name.toList := by
      rw [registeredName_of_isLine hline, hkept,
        Properties.trim_append (isSpace_filter hbefore _) hfirst, Text.dropEndWhile_append hlast,
        hblank, List.append_nil]
    rw [readName, hread, if_neg hne, String.ofList_toList]

/-- Tabulators are blanks, so they may be left out after a line is trimmed as well as before. -/
theorem registeredName_eq_filter_trim (h : IsLine line) :
    registeredName line = (trim line).filter (· ≠ '\t') := by
  rw [registeredName_of_isLine h]
  apply Text.trim_filter
  intro c hc
  obtain rfl : c = '\t' := by simpa using hc
  decide

/-- A line without a name is blank: a character that is no blank would be left in the name. -/
theorem isSpace_of_registeredName (h : IsLine line) (hnone : registeredName line = []) :
    IsSpace line := by
  obtain ⟨before, after, hsplit, hbefore, hafter⟩ := Text.exists_around_trim line
  intro c hc
  refine ⟨?_, h c hc⟩
  rw [hsplit, List.mem_append, List.mem_append] at hc
  rcases hc with hc | hc | hc
  · exact hbefore c hc
  · by_contra hnot
    have htab : c ≠ '\t' := by
      rintro rfl
      exact hnot (by decide)
    have hkept : c ∈ registeredName line := by
      rw [registeredName_eq_filter_trim h]
      exact List.mem_filter.2 ⟨hc, decide_eq_true htab⟩
    rw [hnone] at hkept
    cases hkept
  · exact hafter c hc

/-- A name that is read from a line can stand in one. -/
theorem canStand_registeredName (h : IsLine line) (hne : registeredName line ≠ []) :
    CanStand (String.ofList (registeredName line)) := by
  constructor
  · intro hempty
    apply hne
    simpa using congrArg String.toList hempty
  · rw [String.toList_ofList, registeredName_eq_filter_trim h]
    simp
  · rw [String.toList_ofList, registeredName_eq_filter_trim h]
    intro c hc
    exact h c (Text.mem_of_mem_trim (List.mem_filter.1 hc).1)
  · rw [String.toList_ofList, registeredName, Text.trim_trim]

/-- Every line is one of a registration. -/
theorem registersLine_readName (h : IsLine line) : RegistersLine (readName line) line := by
  unfold readName
  split
  case isTrue hnone => exact .blank (isSpace_of_registeredName h hnone)
  case isFalse hne =>
    obtain ⟨before, after, hsplit, hbefore, hafter⟩ := Text.exists_around_trim line
    have hline := h
    rw [hsplit, Text.isLine_append, Text.isLine_append] at hline
    obtain ⟨hbeforeLine, -, hafterLine⟩ := hline
    have htabbed : Tabbed (String.ofList (registeredName line)).toList (trim line) := by
      rw [String.toList_ofList, registeredName_eq_filter_trim h]
      exact tabbed_filter (trim line)
    have hwritten := RegistersLine.name (canStand_registeredName h hne)
      (fun c hc => ⟨hbefore c hc, hbeforeLine c hc⟩) htabbed
      (fun c hc => ⟨hafter c hc, hafterLine c hc⟩)
    rwa [← hsplit] at hwritten

/-! ## Reading a registration -/

/-- Names are read line by line. -/
theorem registeredNames_eq (text : String) :
    registeredNames text = Text.readLines readName text.toList := by
  unfold registeredNames Text.readLines
  induction Text.splitLines text.toList with
  | nil => rfl
  | cons line lines ih =>
    rw [List.map_cons, List.flatMap_cons, readName]
    by_cases hnone : registeredName line = []
    · rw [List.filter_cons_of_neg (by simp [hnone]), if_pos hnone, ih, List.nil_append]
    · rw [List.filter_cons_of_pos (by simpa using hnone), if_neg hnone, List.map_cons, ih,
        List.singleton_append]

theorem readName_nil : readName [] = [] := rfl

/-- A text registers the names that are written in it. -/
theorem registeredNames_of_registers (h : Registers names text.toList) :
    registeredNames text = names := by
  rw [registeredNames_eq]
  apply Text.readLines_of_written readName_nil _ _ h
  · intro names line hline
    exact hline.isLine
  · intro names line hline
    exact readName_of_registersLine hline

/-- Every text is written from the names that are read from it. -/
theorem registers_registeredNames (text : String) :
    Registers (registeredNames text) text.toList := by
  rw [registeredNames_eq]
  exact Text.written_readLines readName_nil (fun _ => registersLine_readName) _

/-! ## Looking overlays up -/

/-- The overlays of a directory are registered in a text, and both their directory and the text can
be read. -/
structure Registration (fs : FileSystem) (layout : Layout) (dir : Path) (text : String) : Prop where
  present : fs.contains (overlaysAt layout dir) = true
  isDirectory : fs.isDirectory (overlaysAt layout dir) = true
  isReadable : fs.isReadable (overlaysAt layout dir) = true
  registered : fs.contains (registrationAt layout dir) = true
  readable : fs.isReadable (registrationAt layout dir) = true
  hasText : fs.HasText (registrationAt layout dir) text

/-- The line of a name is bad: the error that it leads to, and its code. Overlays are in `dir`. -/
inductive BadLine (fs : FileSystem) (dir registration : Path) (name : String) : Error → Code → Prop
  | invalid {f : NameFault} (h : nameFault? name = some f) :
    BadLine fs dir registration name
      ⟨.badRegistration (some f.message) .invalid, some registration.text⟩ .invalid
  | missing (hvalid : nameFault? name = none) (h : fs.isDirectory (dir.child name) = false) :
    BadLine fs dir registration name
      ⟨.missingOverlay name, some (dir.child name).text⟩ .notFound
  | unreadable (hvalid : nameFault? name = none) (hdir : fs.isDirectory (dir.child name) = true)
    (h : fs.isReadable (dir.child name) = false) :
    BadLine fs dir registration name
      ⟨.unreadableOverlay name, some (dir.child name).text⟩ .denied

/-- The code of an error tells what is wrong with the line. -/
theorem BadLine.code_eq {e : Error} {code : Code} (h : BadLine fs dir registration name e code) :
    e.code = code := by
  cases h with
  | invalid h => rfl
  | missing hvalid h => rfl
  | unreadable hvalid hdir h => rfl

/-- A name stands for an overlay that can be used, or its line is bad. -/
theorem exists_badLine (registration : Path) (h : ¬ IsOverlay fs dir name) :
    ∃ e code, BadLine fs dir registration name e code := by
  cases hvalid : nameFault? name with
  | some f => exact ⟨_, _, .invalid hvalid⟩
  | none =>
    cases hdir : fs.isDirectory (dir.child name) with
    | false => exact ⟨_, _, .missing hvalid hdir⟩
    | true =>
      cases hread : fs.isReadable (dir.child name) with
      | false => exact ⟨_, _, .unreadable hvalid hdir hread⟩
      | true => exact absurd ⟨hvalid, hdir, hread⟩ h

/-- The first bad line ends the search. The induction is on the lines before it. -/
theorem outcome_overlayPaths_of_badLine {before after : List String} {e : Error} {code : Code}
    (hbefore : ∀ other ∈ before, IsOverlay fs dir other)
    (h : BadLine fs dir registration name e code) :
    (overlayPaths dir registration (before ++ name :: after)).outcome fs =
      .error (.refused e) := by
  induction before with
  | nil =>
    rw [List.nil_append, overlayPaths]
    -- the causes are looked for in this order
    cases h with
    | invalid h =>
      rw [h]
      rfl
    | missing hvalid h =>
      rw [hvalid]
      simp only [Program.outcome_isDirectory_bind, h]
      rfl
    | unreadable hvalid hdir h =>
      rw [hvalid]
      simp only [Program.outcome_isDirectory_bind, Program.outcome_isReadable_bind, hdir,
        if_true, h]
      rfl
  | cons first before ih =>
    obtain ⟨hfirst, hbefore⟩ := List.forall_mem_cons.1 hbefore
    rw [List.cons_append, overlayPaths, hfirst.valid]
    simp only [Program.outcome_isDirectory_bind, Program.outcome_isReadable_bind,
      hfirst.isDirectory, hfirst.isReadable, if_true]
    rw [Program.outcome_bind, ih hbefore]
    rfl

/-- If the overlays are registered, their lines are gone through. -/
theorem Registration.outcome_overlays (h : Registration fs layout dir text) :
    (overlays layout dir).outcome fs =
      (overlayPaths (overlaysAt layout dir) (registrationAt layout dir)
        (registeredNames text)).outcome fs := by
  have htext (cause : String → Error) :
      (Program.text (registrationAt layout dir) cause).outcome fs = .ok text :=
    Program.outcome_text_eq_ok.2 h.hasText
  unfold overlays
  rw [Program.outcome_isPresent_bind, if_pos h.present, Program.outcome_isDirectory_bind,
    outcome_isUsable_bind, h.isDirectory, h.isReadable, Bool.and_true]
  dsimp only
  rw [if_pos rfl, Program.outcome_isPresent_bind, if_pos h.registered,
    Program.outcome_isReadable_bind, if_pos h.readable, Program.outcome_bind, htext]
  rfl

/-- Every text registers names. If all of them stand for overlays that can be used, then the
overlays of the directory are these, in order and as often as they are registered; if not, then the
search for them ends in the error of the first line that is bad. -/
theorem overlays_registered :
    (∀ text : String, ∃ names, Registers names text.toList) ∧
      ∀ (fs : FileSystem) (layout : Layout) (dir : Path) (text : String) (names : List String),
        Registration fs layout dir text → Registers names text.toList →
          ((∀ name ∈ names, IsOverlay fs (overlaysAt layout dir) name) →
            (overlays layout dir).outcome fs =
              .ok (names.map (overlaysAt layout dir).child)) ∧
          ∀ before name after, names = before ++ name :: after →
            (∀ other ∈ before, IsOverlay fs (overlaysAt layout dir) other) →
            ¬ IsOverlay fs (overlaysAt layout dir) name →
              ∃ e code, BadLine fs (overlaysAt layout dir) (registrationAt layout dir) name e code ∧
                e.code = code ∧ (overlays layout dir).outcome fs = .error (.refused e) := by
  refine ⟨fun text => ⟨_, registers_registeredNames text⟩, ?_⟩
  intro fs layout dir text names hregistration hnames
  -- a text writes its names in one way only, up to their layout
  have hread : registeredNames text = names := registeredNames_of_registers hnames
  rw [hregistration.outcome_overlays, hread]
  constructor
  · intro hall
    exact outcome_overlayPaths_eq_ok.2 ⟨hall, rfl⟩
  · rintro before name after rfl hbefore hbad
    obtain ⟨e, code, hline⟩ := exists_badLine (registrationAt layout dir) hbad
    exact ⟨e, code, hline, hline.code_eq, outcome_overlayPaths_of_badLine hbefore hline⟩

/-- A registration with tabulators, an empty line, a blank one, and a name that comes twice. -/
def laxRegistration : String := "\tone \r\n\n t\two\x0b \t\x0bone"

/-- A registration of which two lines are bad. -/
def brokenRegistration : String := "one\ngone\n..\n"

/-- A tree with both registrations. -/
def registeringTree : Tree :=
  ((((Tree.makeDirectory {} (.ofText "/m/.overlays/one")).makeDirectory
    (.ofText "/m/.overlays/two")).makeDirectory (.ofText "/n/.overlays/one")).write
    (.ofText "/m/.overlays/.overlays") laxRegistration).write
    (.ofText "/n/.overlays/.overlays") brokenRegistration

theorem registration_registeringTree :
    Registration registeringTree.fileSystem .default (.ofText "/m") laxRegistration ∧
      Registration registeringTree.fileSystem .default (.ofText "/n") brokenRegistration := by
  have htexts : registeringTree.fileSystem.HasText (registrationAt .default (.ofText "/m"))
        laxRegistration ∧
      registeringTree.fileSystem.HasText (registrationAt .default (.ofText "/n"))
        brokenRegistration := by
    rw [Tree.hasText_fileSystem_iff, Tree.hasText_fileSystem_iff]
    decide +kernel
  have hopen : ∀ dir ∈ [Path.ofText "/m", Path.ofText "/n"],
      registeringTree.fileSystem.contains (overlaysAt .default dir) = true ∧
        registeringTree.fileSystem.isDirectory (overlaysAt .default dir) = true ∧
        registeringTree.fileSystem.isReadable (overlaysAt .default dir) = true ∧
        registeringTree.fileSystem.contains (registrationAt .default dir) = true ∧
        registeringTree.fileSystem.isReadable (registrationAt .default dir) = true := by
    decide +kernel
  obtain ⟨hm, hm', hm'', hmr, hmr'⟩ := hopen (.ofText "/m") (by simp)
  obtain ⟨hn, hn', hn'', hnr, hnr'⟩ := hopen (.ofText "/n") (by simp)
  exact ⟨⟨hm, hm', hm'', hmr, hmr', htexts.1⟩, ⟨hn, hn', hn'', hnr, hnr', htexts.2⟩⟩

/-- One registration is read as it is meant, the other one fails at its second line. -/
theorem overlays_registeringTree :
    Registers ["one", "two", "one"] laxRegistration.toList ∧
      (overlays .default (.ofText "/m")).outcome registeringTree.fileSystem =
        .ok (["/m/.overlays/one", "/m/.overlays/two", "/m/.overlays/one"].map .ofText) ∧
      Registers ["one", "gone", ".."] brokenRegistration.toList ∧
      ∃ e : Error, (overlays .default (.ofText "/n")).outcome registeringTree.fileSystem =
        .error (.refused e) ∧ e.code = .notFound := by
  obtain ⟨hlax, hbroken⟩ := registration_registeringTree
  obtain ⟨-, hoverlays⟩ := overlays_registered
  have hnames : registeredNames laxRegistration = ["one", "two", "one"] := by decide +kernel
  have hothers : registeredNames brokenRegistration = ["one", "gone", ".."] := by decide +kernel
  have hregisters := registers_registeredNames laxRegistration
  have hregisters' := registers_registeredNames brokenRegistration
  rw [hnames] at hregisters
  rw [hothers] at hregisters'
  obtain ⟨hall, -⟩ := hoverlays _ _ _ _ _ hlax hregisters
  obtain ⟨-, hfirst⟩ := hoverlays _ _ _ _ _ hbroken hregisters'
  -- the overlays that are there are usable
  have husable (dir name : String) (hvalid : nameFault? name = none)
      (hopen : (registeringTree.fileSystem.isDirectory
          ((overlaysAt .default (.ofText dir)).child name) &&
        registeringTree.fileSystem.isReadable
          ((overlaysAt .default (.ofText dir)).child name)) = true) :
      IsOverlay registeringTree.fileSystem (overlaysAt .default (.ofText dir)) name := by
    obtain ⟨hdir, hread⟩ := Bool.and_eq_true_iff.1 hopen
    exact ⟨hvalid, hdir, hread⟩
  have hone := husable "/m" "one" (by decide) (by decide +kernel)
  have htwo := husable "/m" "two" (by decide) (by decide +kernel)
  have hother := husable "/n" "one" (by decide) (by decide +kernel)
  refine ⟨hregisters, ?_, hregisters', ?_⟩
  · rw [hall (by simpa using ⟨hone, htwo, hone⟩)]
    decide +kernel
  · have hgone : registeringTree.fileSystem.isDirectory
        ((overlaysAt .default (.ofText "/n")).child "gone") = false := by decide +kernel
    have hbad : ¬ IsOverlay registeringTree.fileSystem
        (overlaysAt .default (.ofText "/n")) "gone" := by
      intro h
      exact Bool.false_ne_true (hgone.symm.trans h.isDirectory)
    obtain ⟨e, code, hline, hcode, hfails⟩ :=
      hfirst ["one"] "gone" [".."] rfl (by simpa using hother) hbad
    refine ⟨e, hfails, hcode.trans ?_⟩
    have hvalid : nameFault? "gone" = none := by decide
    cases hline with
    | invalid h => exact absurd (hvalid.symm.trans h) nofun
    | missing hvalid h => rfl
    | unreadable hvalid hdir h => exact absurd hdir (Bool.eq_false_iff.1 hgone)

end ModulePath.Layers
