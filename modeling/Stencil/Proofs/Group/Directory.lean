import Stencil.Proofs.Group.Files
import Stencil.Proofs.Group.Success

/-!
# Directories as one set of declarations

A load of a directory declares templates file by file and holds the region bodies back until all files are read,
and it may stop anywhere. Yet whether it succeeds does not depend on the order of its steps: it succeeds just if
the files together are loadable (`Group.Loadable`), and then the group is that of all their declarations at once
(`Group.change_directory_iff`). Main statement: `Group.change_directory`.
-/

namespace Stencil

open Template (Compiled Delimiters)
open GroupFile (GroupSource RegionDecl)

/-! ## What the files declare -/

namespace GroupConfig

/-- Whether a load of a directory reads the file of this name: its extension is that of files of one template
or that of group files. -/
def loads (c : GroupConfig) (name : String) : Bool :=
  (FileTree.splitExtension name).2 == some c.extension ||
    (FileTree.splitExtension name).2 == some Loading.groupExtension

/-- What stands in a file, given by its name and its text; nothing if the file is not read. -/
def sourceOf (c : GroupConfig) (f : String × String) : GroupSource :=
  if c.loads f.1 then (GroupFile.parse f.2.toList).toOption.getD {} else {}

/-- The templates that files declare, one file after the other. -/
def declared (c : GroupConfig) (texts : List (String × String)) : List (String × Definition) :=
  texts.flatMap fun f => c.definitions (c.sourceOf f)

/-- The region bodies that files declare, one file after the other. -/
def declaredRegions (c : GroupConfig) (texts : List (String × String)) : List (Delimiters × RegionDecl) :=
  texts.flatMap fun f => c.regionBodies (c.sourceOf f)

/-- A file that is read is well-formed, and one with the extension of files of one template declares a template
that its stem names. -/
structure Accepts (c : GroupConfig) (f : String × String) : Prop where
  parses : c.loads f.1 = true → ∃ s, GroupFile.parse f.2.toList = .ok s
  named : ∀ stem s, FileTree.splitExtension f.1 = (stem, some c.extension) → GroupFile.parse f.2.toList = .ok s →
    ∃ t ∈ s.templates, t.name = stem

variable {c : GroupConfig} {f : String × String}

theorem loads_iff {name : String} : c.loads name = true ↔
    (FileTree.splitExtension name).2 = some c.extension ∨
      (FileTree.splitExtension name).2 = some Loading.groupExtension := by
  simp [loads]

theorem sourceOf_eq {s : GroupSource} (hloads : c.loads f.1 = true) (hparse : GroupFile.parse f.2.toList = .ok s) :
    c.sourceOf f = s := by
  rw [sourceOf, if_pos hloads, hparse]
  rfl

theorem sourceOf_eq_empty (h : c.loads f.1 ≠ true) : c.sourceOf f = {} := by
  rw [sourceOf, if_neg h]

theorem accepts_iff : c.Accepts f ↔
    (c.loads f.1 = true → (GroupFile.parse f.2.toList).toBool = true) ∧
      ((FileTree.splitExtension f.1).2 = some c.extension →
        ∀ s ∈ (GroupFile.parse f.2.toList).toOption,
          ∃ t ∈ s.templates, t.name = (FileTree.splitExtension f.1).1) := by
  constructor
  · rintro ⟨hparses, hnamed⟩
    refine ⟨fun h => exists_eq_ok_iff.1 (hparses h), fun h s hs => ?_⟩
    exact hnamed _ s (Prod.ext rfl h) (eq_ok_of_toOption hs)
  · rintro ⟨hparses, hnamed⟩
    refine ⟨fun h => exists_eq_ok_iff.2 (hparses h), fun stem s hsplit hs => ?_⟩
    rw [hsplit, hs] at hnamed
    exact hnamed rfl s rfl

instance : Decidable (c.Accepts f) :=
  decidable_of_iff _ accepts_iff.symm

end GroupConfig

namespace Loading

variable {g g' : Group}

/-! ## Files -/

theorem parseSource_eq_ok_iff {label text : String} {s : GroupSource} :
    parseSource label text = .ok s ↔ GroupFile.parse text.toList = .ok s := by
  rw [parseSource]
  cases GroupFile.parse text.toList <;> simp [Except.mapError]

theorem yields_directoryFile_iff {files : FileTree} {path : String} {f : String × String}
    (hread : files.read (FileTree.join path f.1) = .ok f.2) {regions : List (Delimiters × RegionDecl)} :
    Yields (directoryFile files path f.1) g regions g' ↔
      g.config.Accepts f ∧ g.Fresh (g.config.definitions (g.config.sourceOf f)) ∧
        g' = g.extend (g.config.definitions (g.config.sourceOf f)) ∧
        regions = g.config.regionBodies (g.config.sourceOf f) := by
  have hsource : ∀ s, readSource files (FileTree.join path f.1) = .ok s ↔ GroupFile.parse f.2.toList = .ok s := by
    intro s
    rw [readSource, hread]
    exact parseSource_eq_ok_iff
  obtain ⟨stem, extension, hsplit⟩ : ∃ stem extension, FileTree.splitExtension f.1 = (stem, extension) :=
    ⟨_, _, rfl⟩
  unfold directoryFile
  rw [hsplit, yields_group_bind_iff]
  by_cases hown : extension = some g.config.extension
  · -- A file of one template: it has to declare the template that its stem names.
    have hloads : g.config.loads f.1 = true := GroupConfig.loads_iff.2 (.inl (by rw [hsplit, hown]))
    rw [if_pos hown]
    simp only [yields_lift_bind_iff, hsource]
    constructor
    · rintro ⟨s, hparse, hdeclare⟩
      rw [GroupConfig.sourceOf_eq hloads hparse]
      split at hdeclare
      · next hnamed =>
        refine ⟨⟨fun _ => ⟨s, hparse⟩, fun stem' s' hstem' hs' => ?_⟩, yields_declareAll_iff.1 hdeclare⟩
        cases hsplit.symm.trans hstem'
        cases hparse.symm.trans hs'
        simpa using hnamed
      · obtain ⟨_, _, hthrow, -⟩ := yields_bind_iff.1 hdeclare
        exact absurd hthrow not_yields_throw
    · rintro ⟨haccepts, hdeclare⟩
      obtain ⟨s, hparse⟩ := haccepts.parses hloads
      rw [GroupConfig.sourceOf_eq hloads hparse] at hdeclare
      have hnamed : s.templates.any (·.name == stem) = true := by
        simpa using haccepts.named stem s (by rw [hsplit, hown]) hparse
      refine ⟨s, hparse, ?_⟩
      rw [if_pos hnamed]
      exact yields_declareAll_iff.2 hdeclare
  · -- No other file has to declare any particular template.
    have haccepts : g.config.Accepts f ↔
        (g.config.loads f.1 = true → ∃ s, GroupFile.parse f.2.toList = .ok s) := by
      refine ⟨GroupConfig.Accepts.parses, fun h => ⟨h, fun stem' s hstem' => ?_⟩⟩
      cases hsplit.symm.trans hstem'
      exact absurd rfl hown
    rw [if_neg hown, haccepts]
    by_cases hgroup : extension = some groupExtension
    · have hloads : g.config.loads f.1 = true := GroupConfig.loads_iff.2 (.inr (by rw [hsplit, hgroup]))
      rw [if_pos hgroup]
      simp only [yields_lift_bind_iff, hsource]
      constructor
      · rintro ⟨s, hparse, hdeclare⟩
        rw [GroupConfig.sourceOf_eq hloads hparse]
        exact ⟨fun _ => ⟨s, hparse⟩, yields_declareAll_iff.1 hdeclare⟩
      · rintro ⟨hparses, hdeclare⟩
        obtain ⟨s, hparse⟩ := hparses hloads
        rw [GroupConfig.sourceOf_eq hloads hparse] at hdeclare
        exact ⟨s, hparse, yields_declareAll_iff.2 hdeclare⟩
    · have hloads : g.config.loads f.1 ≠ true := by
        rw [Ne, GroupConfig.loads_iff, hsplit]
        exact not_or.2 ⟨hown, hgroup⟩
      rw [if_neg hgroup, GroupConfig.sourceOf_eq_empty hloads, yields_pure_iff]
      change _ ↔ _ ∧ g.Fresh [] ∧ g' = g.extend [] ∧ regions = []
      rw [g.extend_nil, and_comm]
      exact ⟨fun h => ⟨fun h => absurd h hloads, g.fresh_nil, h⟩, fun h => h.2.2⟩

theorem yields_mapM_directoryFile_iff {files : FileTree} {path : String} {texts : List (String × String)}
    (hread : ∀ f ∈ texts, files.read (FileTree.join path f.1) = .ok f.2)
    {regions : List (List (Delimiters × RegionDecl))} :
    Yields ((texts.map Prod.fst).mapM (directoryFile files path)) g regions g' ↔
      (∀ f ∈ texts, g.config.Accepts f) ∧ g.Fresh (g.config.declared texts) ∧
        g' = g.extend (g.config.declared texts) ∧
        regions = texts.map fun f => g.config.regionBodies (g.config.sourceOf f) := by
  induction texts generalizing g g' regions with
  | nil =>
    rw [List.map_nil, List.mapM_nil, yields_pure_iff, and_comm]
    change _ ↔ _ ∧ g.Fresh [] ∧ g' = g.extend [] ∧ regions = []
    rw [g.extend_nil]
    exact ⟨fun h => ⟨List.forall_mem_nil _, g.fresh_nil, h⟩, fun h => h.2.2⟩
  | cons f texts ih =>
    obtain ⟨hf, htexts⟩ := List.forall_mem_cons.1 hread
    have hdeclared : g.config.declared (f :: texts) =
        g.config.definitions (g.config.sourceOf f) ++ g.config.declared texts := List.flatMap_cons
    rw [List.map_cons, List.mapM_cons, yields_bind_iff, List.forall_mem_cons, hdeclared, Group.fresh_append_iff,
      ← Group.extend_extend, List.map_cons]
    simp only [yields_directoryFile_iff hf, yields_bind_iff, ih htexts, yields_pure_iff]
    constructor
    · rintro ⟨_, _, ⟨haccepts, hfresh, rfl, rfl⟩, _, _, ⟨hrest, hfreshRest, rfl, rfl⟩, rfl, rfl⟩
      exact ⟨⟨haccepts, hrest⟩, ⟨hfresh, hfreshRest⟩, rfl, rfl⟩
    · rintro ⟨⟨haccepts, hrest⟩, ⟨hfresh, hfreshRest⟩, rfl, rfl⟩
      exact ⟨_, _, ⟨haccepts, hfresh, rfl, rfl⟩, _, _, ⟨hrest, hfreshRest, rfl, rfl⟩, rfl, rfl⟩

end Loading

/-! ## The whole directory -/

namespace Group

/-- The files of a directory can be loaded together. -/
structure Loadable (g : Group) (texts : List (String × String)) : Prop where
  accepts : ∀ f ∈ texts, g.config.Accepts f
  fresh : g.Fresh (g.config.declared texts)
  replaces : ∀ r ∈ g.config.declaredRegions texts, (g.extend (g.config.declared texts)).Replaces r
  eager : g.config.eager = true → ∀ name, (g.extend (g.config.declared texts)).contains name = true →
    ∃ t, (g.extend (g.config.declared texts)).compiled name = .ok t

theorem loadable_iff {g : Group} {texts : List (String × String)} : g.Loadable texts ↔
    (∀ f ∈ texts, g.config.Accepts f) ∧ g.Fresh (g.config.declared texts) ∧
      (∀ r ∈ g.config.declaredRegions texts, (g.extend (g.config.declared texts)).Replaces r) ∧
      (g.config.eager = true → ∀ name ∈ (g.extend (g.config.declared texts)).templates.map Prod.fst,
        ((g.extend (g.config.declared texts)).compiled name).toBool = true) := by
  simp only [← exists_eq_ok_iff, ← Dictionary.lookup_isSome_iff_mem_keys]
  exact ⟨fun h => ⟨h.accepts, h.fresh, h.replaces, h.eager⟩, fun h => ⟨h.1, h.2.1, h.2.2.1, h.2.2.2⟩⟩

instance (g : Group) (texts : List (String × String)) : Decidable (g.Loadable texts) :=
  decidable_of_iff _ loadable_iff.symm

variable {g : Group} {files : FileTree} {path : String} {texts : List (String × String)}

theorem change_directory_iff (h : files.Holds path texts) {g' : Group} :
    g.change (.directory files path) = (g', none) ↔
      g.Loadable texts ∧
        g' = (g.extend (g.config.declared texts)).replaceAll (g.config.declaredRegions texts) := by
  obtain ⟨place, hplace, hnames⟩ := h.filesIn?
  rw [change, Loading.apply_eq_iff, Change.loading, Loading.directory, hplace]
  dsimp only
  rw [hnames]
  dsimp only
  rw [Loading.yields_bind_iff]
  simp only [Loading.yields_mapM_directoryFile_iff fun f hf => h.read hf, Loading.yields_finish_iff]
  constructor
  · rintro ⟨_, _, ⟨haccepts, hfresh, rfl, rfl⟩, hreplaces, heager, rfl⟩
    exact ⟨⟨haccepts, hfresh, hreplaces, fun he => compileAll_eq_ok_iff.1 (heager he)⟩, rfl⟩
  · rintro ⟨⟨haccepts, hfresh, hreplaces, heager⟩, rfl⟩
    exact ⟨_, _, ⟨haccepts, hfresh, rfl, rfl⟩, hreplaces, fun he => compileAll_eq_ok_iff.2 (heager he), rfl⟩

/-- **A directory is one set of declarations.** Any group, and any directory whose files are readable texts. The
load succeeds if and only if every file that it reads is well-formed, those with the extension of files of one
template declare the template that their stem names, all declared names are pairwise different and new to the
group, every region body belongs to a region of a well-formed template of the resulting group and is well-formed
under the delimiters of its own file, and, if the group is eager, all templates of the resulting group are
well-formed. Then the templates are those from before and exactly the declared ones, and every region is replaced
by the last body that is declared for it, in the order of the file names and in each file from the beginning on;
where none is declared, what replaced it before stays. -/
theorem change_directory (g : Group) (h : files.Holds path texts) :
    ((g.change (.directory files path)).2 = none ↔ g.Loadable texts) ∧
    ∀ g', g.change (.directory files path) = (g', none) →
      g'.templates = g.templates ++ g.config.declared texts ∧
      g'.config = g.config ∧ g'.adaptors = g.adaptors ∧ g'.renderers = g.renderers ∧
      (∀ before r after, g.config.declaredRegions texts = before ++ r :: after →
        (∀ r' ∈ after, r'.2.key ≠ r.2.key) →
        ∃ c, r.2.compile r.1 = .ok c ∧ g'.override? r.2.template r.2.region = some c) ∧
      ∀ template region, (∀ r ∈ g.config.declaredRegions texts, r.2.key ≠ (template, region)) →
        g'.override? template region = g.override? template region := by
  constructor
  · constructor
    · intro hnone
      exact ((change_directory_iff h).1 (Prod.ext rfl hnone)).1
    · intro hloadable
      rw [(change_directory_iff h).2 ⟨hloadable, rfl⟩]
  · intro g' hchange
    obtain ⟨hloadable, hg'⟩ := (change_directory_iff h).1 hchange
    have hframe := replaceAll_eq (g.extend (g.config.declared texts)) (g.config.declaredRegions texts)
    rw [← hg'] at hframe
    refine ⟨by rw [hframe]; rfl, by rw [hframe]; rfl, by rw [hframe]; rfl, by rw [hframe]; rfl, ?_, ?_⟩
    · intro before r after hregions hafter
      have hmem : r ∈ g.config.declaredRegions texts := by
        rw [hregions]
        exact List.mem_append_right before List.mem_cons_self
      obtain ⟨c, hc⟩ := (hloadable.replaces r hmem).body
      refine ⟨c, hc, ?_⟩
      rw [hg', hregions]
      exact override?_replaceAll hc hafter
    · intro template region hnone
      rw [hg']
      exact override?_replaceAll_of_ne hnone

/-- A directory in an eager group that has a template already. A region is replaced in a file before the one
that declares its template and again in one after it, each time under the delimiters of the file; other files
and directories inside are passed over. -/
theorem change_directory_forward :
    let first := "delimiters \"$\", \"$\" row(n) ::= \"$n$\" @page.head() ::= \"<$n$>\""
    let page := "page(n) ::= \"[<@head()>]\""
    let last := "@page.head() ::= \"<n>\""
    let files : FileTree := {
      root := "/home"
      entries := [(["t", "z.stg"], .file last.toUTF8), (["t", "page.st"], .file page.toUTF8),
        (["t", "notes.txt"], .file "::=".toUTF8), (["t", "a.stg"], .file first.toUTF8), (["t"], .directory),
        (["t", "sub"], .directory), (["t", "sub", "x.st"], .file "".toUTF8)] }
    let texts := [("a.stg", first), ("notes.txt", "::="), ("page.st", page), ("z.stg", last)]
    let g := Group.after { config := { eager := true } } [.source "old() ::= \"<@x()>\" @old.x() ::= \"1\""]
    files.Holds "t/" texts ∧ g.Loadable texts ∧
    ∃ g' c, g.change (.directory files "t/") = (g', none) ∧
      g'.templates.map (fun d => (d.1, d.2.body)) = [("old", "<@x()>"), ("row", "$n$"), ("page", "[<@head()>]")] ∧
      g'.override? "page" "head" = some c ∧ c.source = "<n>" ∧ c.delimiters = {} ∧
      g'.override? "old" "x" = g.override? "old" "x" ∧ (g.override? "old" "x").isSome := by
  intro first page last files texts g
  have hresolve : files.resolve "t/" = .ok (.directory ["t"]) := by
    have hparts : FileTree.parts "t/" = ["t", ""] := by decide +kernel
    have hstart : FileTree.isAbsolute "t/" = false := by decide +kernel
    refine FileTree.resolve_eq_ok_iff.2 ⟨by decide, by decide +kernel, ?_⟩
    rw [hparts, hstart]
    rfl
  have hholds : files.Holds "t/" texts := by
    refine ⟨⟨["t"], hresolve, fun name content => ?_⟩, by decide +kernel, by decide +kernel, by decide +kernel⟩
    rw [Dictionary.lookup_eq_some_iff_mem files.distinct]
    simp only [files, texts, List.mem_cons, Prod.mk.injEq, List.cons_append, List.nil_append, List.cons.injEq,
      FileEntry.file.injEq, reduceCtorEq, and_true, true_and, and_false, false_and, or_false,
      List.not_mem_nil]
    constructor
    · rintro (⟨rfl, rfl⟩ | ⟨rfl, rfl⟩ | ⟨rfl, rfl⟩ | ⟨rfl, rfl⟩) <;> simp
    · rintro ⟨text, ⟨rfl, rfl⟩ | ⟨rfl, rfl⟩ | ⟨rfl, rfl⟩ | ⟨rfl, rfl⟩, rfl⟩ <;> simp
  have hloadable : g.Loadable texts := by decide +kernel
  have hdeclared : (g.templates ++ g.config.declared texts).map (fun d => (d.1, d.2.body)) =
      [("old", "<@x()>"), ("row", "$n$"), ("page", "[<@head()>]")] := by
    decide +kernel
  have hregions : g.config.declaredRegions texts = [(⟨'$', '$'⟩, ⟨"page", "head", "<$n$>", ⟨37, 61⟩⟩)] ++
      (⟨'<', '>'⟩, ⟨"page", "head", "<n>", ⟨0, 22⟩⟩) :: [] := by
    decide +kernel
  obtain ⟨hiff, hresult⟩ := change_directory g hholds
  obtain ⟨htemplates, -, -, -, hlast, hframe⟩ := hresult _ (Prod.ext rfl (hiff.2 hloadable))
  obtain ⟨c, hc, hhead⟩ := hlast _ _ _ hregions (List.forall_mem_nil _)
  have hbody : (RegionDecl.compile ⟨"page", "head", "<n>", ⟨0, 22⟩⟩ ⟨'<', '>'⟩).map
      (fun c => (c.source, c.delimiters)) = .ok ("<n>", ⟨'<', '>'⟩) := by
    decide +kernel
  rw [hc] at hbody
  obtain ⟨hsource, hdelimiters⟩ := Prod.mk.inj (Except.ok.inj hbody)
  refine ⟨hholds, hloadable, _, c, Prod.ext rfl (hiff.2 hloadable), ?_, hhead, hsource, hdelimiters, ?_, ?_⟩
  · rw [htemplates]
    exact hdeclared
  · refine hframe "old" "x" ?_
    rw [hregions]
    decide
  · decide +kernel

/-- Two files that declare a template of the same name. -/
example : ¬({} : Group).Loadable [("a.stg", "x() ::= \"1\""), ("x.st", "x() ::= \"2\"")] := by
  decide +kernel

end Group
end Stencil
