import SocialNetworkApp.Core.Lexical
import SocialNetworkApp.Http.Handlers

/-!
# Files that are served

The type of a file is looked up for the text from the last dot of the path name on. Where this dot
stands in the name of a directory, the text holds a slash and is not in the table; where there is no
dot at all, the position is out of range and an exception escapes.
-/

namespace SocialNetworkApp

open SocialNetworkApp.Core

/-- What is read of a file that opens. -/
def Core.OpenRead.bytes : OpenRead → Option Str
  | .closed => none
  | .directory => some []
  | .contents content => some content

/-- The type of a file with the name `component`: that of the table for the text from the last dot
on, if it is there. -/
def componentType (component : Str) : Str :=
  match findLastOf '.' component with
  | none => "application/octet-stream".toList
  | some dot =>
    (MIME.mimeTypes.lookup (component.drop dot)).getD "application/octet-stream".toList

/-- A file that opens is answered with its bytes and the type of its last component. -/
def StaticHandler.Serves (fs : FileSystem) (fileName : Str) : Prop :=
  ∀ content, (fs.openRead fileName).bytes = some content → ∀ res, ∃ res',
    StaticHandler.handleRequest fs fileName res = .ok (.ok, res') ∧ res'.version = 11 ∧
      res'.result = .ok ∧ res'.body = content ∧
      res'.contentType = some (componentType (lastComponent fileName))

/-! ### The last component -/

lemma lastComponent_of_not_mem {path : Str} (h : '/' ∉ path) : lastComponent path = path := by
  rw [lastComponent, List.splitOn_eq_singleton h]
  rfl

lemma lastComponent_append (a : Str) {component : Str} (h : '/' ∉ component) :
    lastComponent (a ++ '/' :: component) = component := by
  rw [lastComponent, List.splitOn_append_cons_self, List.splitOn_eq_singleton h,
    List.getLastD_concat]

/-- No type is known for a text with a slash. -/
lemma lookup_mimeTypes_of_mem {extension : Str} (h : '/' ∈ extension) :
    MIME.mimeTypes.lookup extension = none := by
  have hknown : ∀ entry ∈ MIME.mimeTypes, '/' ∉ entry.1 := by decide
  rw [List.lookup_eq_none_iff]
  intro entry hentry
  refine bne_iff_ne.mpr ?_
  rintro rfl
  exact hknown entry hentry h

lemma componentType_of_not_mem {component : Str} (h : '.' ∉ component) :
    componentType component = "application/octet-stream".toList := by
  rw [componentType, (findLastOf_eq_none_iff '.' component).mpr h]

lemma componentType_append (a : Str) {extension : Str} (h : '.' ∉ extension) :
    componentType (a ++ '.' :: extension) =
      (MIME.mimeTypes.lookup ('.' :: extension)).getD "application/octet-stream".toList := by
  rw [componentType, findLastOf_append_cons a h]
  simp

/-- Where the path name has a dot, the type of its last component is found. -/
lemma getMimeType_of_mem {fileName : Str} (h : '.' ∈ fileName) :
    MIME.getMimeType fileName = .ok (componentType (lastComponent fileName)) := by
  obtain ⟨a, b, rfl, hb⟩ := (not_mem_or_split '.' fileName).resolve_left (not_not.mpr h)
  have htype : MIME.getMimeType (a ++ '.' :: b) =
      .ok ((MIME.mimeTypes.lookup ('.' :: b)).getD "application/octet-stream".toList) := by
    rw [MIME.getMimeType, findLastOf_append_cons a hb]
    simp
  rw [htype]
  rcases not_mem_or_split '/' b with hslash | ⟨b', component, rfl, hcomponent⟩
  · rcases not_mem_or_split '/' a with hslash' | ⟨a', a'', rfl, ha''⟩
    · rw [lastComponent_of_not_mem, componentType_append a hb]
      simp [hslash, hslash']
    · rw [List.append_assoc, List.cons_append, lastComponent_append, componentType_append a'' hb]
      simp [hslash, ha'']
  · -- the last dot stands in the name of a directory
    have hdot : '.' ∉ component := fun hmem =>
      hb (List.mem_append_right _ (List.mem_cons_of_mem _ hmem))
    rw [lookup_mimeTypes_of_mem (by simp), ← List.cons_append, ← List.append_assoc,
      lastComponent_append _ hcomponent, componentType_of_not_mem hdot]
    rfl

lemma handleRequest_of_bytes {fs : FileSystem} {fileName contentType content : Str}
    (htype : MIME.getMimeType fileName = .ok contentType)
    (hbytes : (fs.openRead fileName).bytes = some content) (res : Response) :
    StaticHandler.handleRequest fs fileName res =
      .ok (.ok, { res with version := 11, result := .ok }.fill contentType content) := by
  rw [StaticHandler.handleRequest, htype]
  cases hread : fs.openRead fileName with
  | closed =>
    rw [hread] at hbytes
    cases hbytes
  | directory =>
    rw [hread] at hbytes
    obtain rfl := Option.some.inj hbytes
    rfl
  | contents s =>
    rw [hread] at hbytes
    obtain rfl := Option.some.inj hbytes
    rfl

/-- A file without a dot in its path name is answered with an exception. -/
lemma handleRequest_of_not_mem {fs : FileSystem} {fileName : Str} (hdot : '.' ∉ fileName)
    (hopen : fs.openRead fileName ≠ .closed) (res : Response) :
    StaticHandler.handleRequest fs fileName res = .error (.number .outOfRange) := by
  have htype : MIME.getMimeType fileName = .error (.number .outOfRange) := by
    rw [MIME.getMimeType, (findLastOf_eq_none_iff '.' fileName).mpr hdot]
  rw [StaticHandler.handleRequest, htype]
  cases hread : fs.openRead fileName with
  | closed => exact absurd hread hopen
  | directory => rfl
  | contents content => rfl

/-- A file is served as it is, exactly if its path name has a dot. -/
theorem StaticHandler.serves_iff (fs : FileSystem) (fileName : Str) :
    Serves fs fileName ↔ '.' ∈ fileName ∨ fs.openRead fileName = .closed := by
  constructor
  · intro hserves
    by_contra hneither
    obtain ⟨hdot, hopen⟩ := not_or.mp hneither
    obtain ⟨content, hcontent⟩ : ∃ content, (fs.openRead fileName).bytes = some content := by
      cases hread : fs.openRead fileName with
      | closed => exact absurd hread hopen
      | directory => exact ⟨[], rfl⟩
      | contents content => exact ⟨content, rfl⟩
    obtain ⟨res', hres', -⟩ := hserves content hcontent {}
    rw [handleRequest_of_not_mem hdot hopen] at hres'
    cases hres'
  · rintro (hdot | hclosed) content hcontent res
    · exact ⟨_, handleRequest_of_bytes (getMimeType_of_mem hdot) hcontent res, rfl, rfl, rfl, rfl⟩
    · rw [hclosed] at hcontent
      cases hcontent

/-- A file without a dot in its name. -/
def readmeDisk : FileSystem :=
  ⟨FileTree.bare.insert [['r', 'e', 'a', 'd', 'm', 'e']] (.file ['h', 'i']) (List.cons_ne_nil _ _)
    (by decide) fun h => absurd h (by decide), []⟩

/-- The file opens, and an exception escapes. -/
theorem readme_not_serves :
    readmeDisk.openRead ['r', 'e', 'a', 'd', 'm', 'e'] = .contents ['h', 'i'] ∧
      StaticHandler.handleRequest readmeDisk ['r', 'e', 'a', 'd', 'm', 'e'] {} =
        .error (.number .outOfRange) ∧
      ¬ StaticHandler.Serves readmeDisk ['r', 'e', 'a', 'd', 'm', 'e'] := by
  have hread : readmeDisk.openRead ['r', 'e', 'a', 'd', 'm', 'e'] = .contents ['h', 'i'] := by
    decide
  have hdot : '.' ∉ ['r', 'e', 'a', 'd', 'm', 'e'] := by decide
  have herror := handleRequest_of_not_mem hdot (by rw [hread]; simp) {}
  refine ⟨hread, herror, fun hserves => ?_⟩
  obtain ⟨res', hres', -⟩ := hserves ['h', 'i'] (by rw [hread]; rfl) {}
  rw [herror] at hres'
  cases hres'

end SocialNetworkApp
