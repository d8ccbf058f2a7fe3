import SocialNetworkApp.Meme.Updates

/-!
# The tables and the files

A count is written to its file in the step in which it changes in memory. So whatever the order of
the steps, and wherever between two of them the calls are cut off, a new module reads the counts
back, as long as no meme is rated before its directory is there.
-/

namespace SocialNetworkApp

open SocialNetworkApp.Core

/-- What a module counts of a meme. -/
inductive Tally where
  | views
  | ratings
deriving DecidableEq

namespace Tally

/-- The file it is written to. -/
def name : Tally → Str
  | views => "views".toList
  | ratings => "ratings".toList

lemma plainName_name (t : Tally) : PlainName t.name := by
  cases t <;> decide

lemma name_injective : Function.Injective name := by
  intro t t' h
  cases t <;> cases t' <;> first | rfl | exact absurd h (by decide)

variable {F : Type} (float : FloatArith F)

/-- What is to be written there. -/
def text (memes : MemeModule F) (id : MemeId) : Tally → Option Str
  | views => (memes.viewCounts.lookup id).map toStr
  | ratings => (memes.ratings.lookup id).map fun r => toStr r.1 ++ ',' :: float.toStr r.2

end Tally

/-- The meme and the count that an update is about. -/
def MemeUpdate.tally : MemeUpdate → Option (MemeId × Tally)
  | numbered => none
  | viewed id => some (id, .views)
  | rated id _ => some (id, .ratings)

/-- A `float` that is read back is printed as it was: six digits survive. -/
structure FloatArith.Rereads {F : Type} (float : FloatArith F) : Prop extends float.Reads where
  reprint : ∀ {x y}, float.stof (float.toStr x) = .ok y → float.toStr y = float.toStr x

lemma wholeFloat_rereads : wholeFloat.Rereads where
  toReads := wholeFloat_reads
  reprint := by
    intro x y h
    rw [show wholeFloat.stof (wholeFloat.toStr x) = .ok x from
      stoi_toStr_append x (noDigitHead_cons _ _ |>.mpr (by decide)), Except.ok.injEq] at h
    rw [h]

/-! ### The root of the memes -/

section

variable {F : Type}

/-- The directories below the root are called like memes. -/
structure MemeRoot (r : List Str) (w : MemeState F) : Prop where
  resolve_eq : w.fs.resolve w.memes.root = some r
  isDir : w.fs.tree.IsDir r
  named : ∀ {n x}, w.fs.tree.node (r ++ [n]) = some x →
    PlainName n ∧ (x = .dir → ∃ id : MemeId, n = id.toStr)

/-- Besides, the files of counts are there for what the tables hold, and say the same. -/
structure Recorded (float : FloatArith F) (r : List Str) (w : MemeState F) : Prop
    extends MemeRoot r w where
  node_eq : ∀ (id : MemeId) (t : Tally),
    w.fs.tree.node (r ++ [id.toStr] ++ [t.name]) = (t.text float w.memes id).map .file

end

variable {F : Type} {float : FloatArith F} {tree : PropertyTree F} {faults : StorageFaults}
  {memes : MemeModule F} {w : MemeState F} {r : List Str} {id : MemeId} {t : Tally}

namespace MemeRoot

variable (h : MemeRoot r w)

include h

lemma resolve_meme (id : MemeId) : w.fs.resolve (w.memes.memePath id) = some (r ++ [id.toStr]) := by
  have hpath := FileSystem.resolve_below h.resolve_eq h.isDir id.plainName_toStr.2.1
  rwa [stepName_of_plain r id.plainName_toStr] at hpath

lemma memeExists_iff : MemeExists w.fs w.memes.root id ↔ w.fs.tree.IsDir (r ++ [id.toStr]) := by
  have hpath := FileSystem.isDirectory_of_resolve (h.resolve_meme id)
  rw [MemeModule.memePath] at hpath
  rw [MemeExists, hpath, decide_eq_true_eq]

lemma resolve_file {n : Str} (hn : PlainName n) (hdir : w.fs.tree.IsDir (r ++ [id.toStr])) :
    w.fs.resolve (w.memes.memePath id ++ '/' :: n) = some (r ++ [id.toStr] ++ [n]) := by
  have hpath := FileSystem.resolve_below (h.resolve_meme id) hdir hn.2.1
  rwa [stepName_of_plain _ hn] at hpath

lemma eq_of_resolve_file {n : Str} {q : List Str} (hn : PlainName n)
    (hq : w.fs.resolve (w.memes.memePath id ++ '/' :: n) = some q) :
    w.fs.tree.IsDir (r ++ [id.toStr]) ∧ q = r ++ [id.toStr] ++ [n] := by
  obtain ⟨p, hp, hdir, rfl⟩ :=
    FileSystem.isDir_of_resolve_append (MemeModule.memePath_ne_nil _ id) hn.2.1 hq
  obtain rfl := Option.some.inj ((h.resolve_meme id).symm.trans hp)
  exact ⟨hdir, stepName_of_plain _ hn⟩

lemma eq_of_resolve_comment {uuid : FileName} {q : List Str}
    (hq : w.fs.resolve (w.memes.memePath id ++ "/comments".toList ++ '/' :: uuid.val) = some q) :
    q = r ++ [id.toStr] ++ ["comments".toList] ++ [uuid.val] := by
  obtain ⟨p, hp, -, rfl⟩ := FileSystem.isDir_of_resolve_append
    (List.append_ne_nil_of_left_ne_nil (MemeModule.memePath_ne_nil _ id) _) uuid.2.2.1 hq
  obtain ⟨-, rfl⟩ := h.eq_of_resolve_file (show PlainName "comments".toList by decide) hp
  exact stepName_of_plain _ uuid.2

end MemeRoot

/-! ### One step -/

/-- An update changes the count it is about. -/
lemma Tally.text_apply {u : MemeUpdate} (h : u.tally ≠ some (id, t)) :
    t.text float (u.apply float memes) id = t.text float memes id := by
  cases t with
  | views =>
    have hne : u ≠ .viewed id := by
      rintro rfl
      exact h rfl
    rw [text, MemeUpdate.lookup_viewCounts_apply, if_neg hne]
    rfl
  | ratings =>
    have hnone : u.ratingOf id = none := by
      cases u with
      | rated id' rating =>
        refine if_neg ?_
        rintro rfl
        exact h rfl
      | _ => rfl
    rw [text, MemeUpdate.lookup_ratings_apply, hnone]
    rfl

/-- A file that can be opened is written. -/
lemma BoostFileSystem.node_writeFile_self {fs : FileSystem} {path : Str} {p : List Str} {n : Str}
    (content : Str) (hpath : fs.resolve path = some (p ++ [n])) (hp : fs.tree.IsDir p)
    (hn : ¬ fs.tree.IsDir (p ++ [n])) (hfaults : faults.opening path = false) :
    (writeFile faults fs path content).2.tree.node (p ++ [n]) = some (.file content) := by
  have hsame : writeFile faults fs path content = writeFile {} fs path content := by
    rw [writeFile, writeFile, hfaults]
  obtain ⟨fs', hwrite, hsets⟩ := writeFile_success content hpath hp hn
  rw [hsame, hwrite]
  exact hsets.node_self

namespace CallState

variable {c : CallState F}

/-- The only path at which the next step may change the disk. -/
def path (r : List Str) : CallState F → Option (List Str)
  | createDirectory _ newId => some (r ++ [newId.toStr])
  | writeContent _ newId => some (r ++ [newId.toStr] ++ ["content".toList])
  | incrementViewCount id => some (r ++ [id.toStr] ++ [Tally.views.name])
  | addRating id _ => some (r ++ [id.toStr] ++ [Tally.ratings.name])
  | createComments _ id _ => some (r ++ [id.toStr] ++ ["comments".toList])
  | writeComment uuid id _ => some (r ++ [id.toStr] ++ ["comments".toList] ++ [uuid.val])
  | _ => none

lemma node_advance (h : MemeRoot r w) {q : List Str} (hq : c.path r ≠ some q) :
    (advance float tree faults c w).2.fs.tree.node q = w.fs.tree.node q := by
  cases c with
  | createDirectory content newId =>
    have hnode := @BoostFileSystem.node_createDirectory faults w.fs (w.memes.memePath newId) q ?_
    · rw [advance]
      split <;> rename_i hcreate <;> rw [hcreate] at hnode <;> exact hnode
    · rw [h.resolve_meme]
      exact hq
  | writeContent content newId =>
    have hnode := @BoostFileSystem.node_writeFile faults w.fs
      (w.memes.memePath newId ++ "/content".toList) content q ?_
    · rw [advance]
      split <;> rename_i hwrite <;> rw [hwrite] at hnode <;> exact hnode
    · intro hname
      exact hq (congrArg some (h.eq_of_resolve_file (by decide) hname).2.symm)
  | incrementViewCount id =>
    rw [advance, MemeModule.incrementViewCount_eq]
    refine BoostFileSystem.node_writeFile fun hname => hq ?_
    exact congrArg some (h.eq_of_resolve_file Tally.views.plainName_name hname).2.symm
  | addRating id rating =>
    rw [advance, MemeModule.addRating_eq]
    refine BoostFileSystem.node_writeFile fun hname => hq ?_
    exact congrArg some (h.eq_of_resolve_file Tally.ratings.plainName_name hname).2.symm
  | createComments uuid id comment =>
    refine BoostFileSystem.node_createDirectory fun hname => hq ?_
    exact congrArg some (h.eq_of_resolve_file (by decide) hname).2.symm
  | writeComment uuid id comment =>
    refine BoostFileSystem.node_writeFile fun hname => hq ?_
    exact congrArg some (h.eq_of_resolve_comment hname).symm
  | findMeme id =>
    rw [advance]
    split_ifs <;> rfl
  | findDirectory id =>
    rw [advance]
    split_ifs <;> rfl
  | getContent id =>
    rw [advance]
    split <;> rfl
  | findCommented uuid id comment =>
    rw [advance]
    split_ifs <;> rfl
  | findComments uuid id comment =>
    rw [advance]
    split_ifs <;> rfl
  | _ => rfl

/-- A step writes to the file of no count but the one its update is about. -/
lemma path_ne_tally (h : c.update?.bind MemeUpdate.tally ≠ some (id, t)) :
    c.path r ≠ some (r ++ [id.toStr] ++ [t.name]) := by
  have hsame : ∀ (id' : MemeId) (t' : Tally),
      some (r ++ [id'.toStr] ++ [t'.name]) = some (r ++ [id.toStr] ++ [t.name]) →
        some (id', t') = some (id, t) := by
    intro id' t' heq
    simp only [Option.some.injEq, List.append_assoc, List.append_cancel_left_eq,
      List.singleton_append, List.cons.injEq, and_true] at heq
    rw [MemeId.toStr_injective heq.1, Tally.name_injective heq.2]
  have hother : ∀ {id' : MemeId} {n : Str},
      some (r ++ [id'.toStr] ++ [n]) = some (r ++ [id.toStr] ++ [t.name]) → n = t.name := by
    intro id' n heq
    simp only [Option.some.injEq, List.append_assoc, List.append_cancel_left_eq,
      List.singleton_append, List.cons.injEq, and_true] at heq
    exact heq.2
  intro hpath
  cases c with
  | incrementViewCount id' => exact h (hsame id' .views hpath)
  | addRating id' rating => exact h (hsame id' .ratings hpath)
  | writeContent content newId =>
    have hname := hother hpath
    cases t <;> exact absurd hname (by decide)
  | createComments uuid id' comment =>
    have hname := hother hpath
    cases t <;> exact absurd hname (by decide)
  | createDirectory | writeComment =>
    have hlength := congrArg (fun p => (p.getD []).length) hpath
    simp [path] at hlength
  | _ => cases hpath

/-- Below the root a step makes directories of memes. -/
lemma eq_of_path {n : Str} (h : c.path r = some (r ++ [n])) : ∃ id : MemeId, n = id.toStr := by
  cases c with
  | createDirectory content newId =>
    simp only [path, Option.some.injEq, List.append_cancel_left_eq, List.cons.injEq,
      and_true] at h
    exact ⟨newId, h.symm⟩
  | writeContent | incrementViewCount | addRating | createComments | writeComment =>
    have hlength := congrArg (fun p => (p.getD []).length) h
    simp [path] at hlength
  | _ => cases h

/-- What is a name stays one. -/
lemma resolve_advance {name : Str} {p : List Str} (h : w.fs.resolve name = some p) :
    (advance float tree faults c w).2.fs.resolve name = some p := by
  have heffect := (@advances F float tree faults c w).effect
  generalize (advance float tree faults c w).2.fs = fs at heffect ⊢
  cases heffect with
  | none h' => rw [h', h]
  | directory hp hsets => exact hsets.resolve_mono (fun _ => rfl) h
  | file hwrites hname hp hsets => exact hsets.resolve_mono (fun hdir => absurd hdir hp) h

lemma isDir_advance {p : List Str} (h : w.fs.tree.IsDir p) :
    (advance float tree faults c w).2.fs.tree.IsDir p := by
  have heffect := (@advances F float tree faults c w).effect
  generalize (advance float tree faults c w).2.fs = fs at heffect ⊢
  cases heffect with
  | none h' => rwa [h']
  | directory hp hsets => exact hsets.isDir_mono (fun _ => rfl) h
  | file hwrites hname hp hsets => exact hsets.isDir_mono (fun hdir => absurd hdir hp) h

/-- A step whose update is about a count writes what it changes the count to. -/
lemma node_advance_of_tally (h : MemeRoot r w) {u : MemeUpdate} (hu : c.update? = some u)
    (htally : u.tally = some (id, t)) (hdir : w.fs.tree.IsDir (r ++ [id.toStr]))
    (hfile : ¬ w.fs.tree.IsDir (r ++ [id.toStr] ++ [t.name]))
    (hfaults : faults.opening (w.memes.memePath id ++ '/' :: t.name) = false) :
    (advance float tree faults c w).2.fs.tree.node (r ++ [id.toStr] ++ [t.name]) =
      (t.text float (advance float tree faults c w).2.memes id).map .file := by
  have hpath := h.resolve_file t.plainName_name hdir
  cases c with
  | incrementViewCount id' =>
    cases hu
    cases htally
    rw [advance, MemeModule.incrementViewCount_eq]
    refine (BoostFileSystem.node_writeFile_self _ hpath hdir hfile hfaults).trans ?_
    rw [Tally.text, AList.lookup_insert]
    rfl
  | addRating id' rating =>
    cases hu
    cases htally
    rw [advance, MemeModule.addRating_eq]
    refine (BoostFileSystem.node_writeFile_self _ hpath hdir hfile hfaults).trans ?_
    rw [Tally.text, AList.lookup_insert]
    rfl
  | generateId content =>
    cases hu
    cases htally
  | _ => cases hu

end CallState

/-- Whatever the next step, the root stays one of memes. -/
lemma MemeRoot.advance {c : CallState F} (h : MemeRoot r w) :
    MemeRoot r (CallState.advance float tree faults c w).2 := by
  refine ⟨?_, CallState.isDir_advance h.isDir, ?_⟩
  · rw [(@CallState.advances F float tree faults c w).root_eq]
    exact CallState.resolve_advance h.resolve_eq
  · intro n x hx
    by_cases hpath : c.path r = some (r ++ [n])
    · obtain ⟨id, rfl⟩ := CallState.eq_of_path hpath
      exact ⟨id.plainName_toStr, fun _ => ⟨id, rfl⟩⟩
    · rw [CallState.node_advance h hpath] at hx
      exact h.named hx

/-- A call that counts a view or a rating next finds the meme's directory. -/
def CallState.Finds (c : CallState F) (w : MemeState F) : Prop :=
  ∀ u ∈ c.update?, ∀ id t, u.tally = some (id, t) → MemeExists w.fs w.memes.root id

/-- The files go on saying what the tables say. -/
lemma Recorded.advance {c : CallState F} (h : Recorded float r w) (hfinds : c.Finds w)
    (hfaults : ∀ id (t : Tally), faults.opening (w.memes.memePath id ++ '/' :: t.name) = false) :
    Recorded float r (CallState.advance float tree faults c w).2 := by
  refine ⟨h.toMemeRoot.advance, fun id t => ?_⟩
  by_cases htally : c.update?.bind MemeUpdate.tally = some (id, t)
  · obtain ⟨u, hu, hut⟩ := Option.bind_eq_some_iff.mp htally
    have hdir := h.toMemeRoot.memeExists_iff.mp (hfinds u hu id t hut)
    have hfile : ¬ w.fs.tree.IsDir (r ++ [id.toStr] ++ [t.name]) := by
      rw [FileTree.IsDir, h.node_eq]
      cases t.text float w.memes id <;> simp
    exact CallState.node_advance_of_tally h.toMemeRoot hu hut hdir hfile (hfaults id t)
  · have hsame : t.text float (CallState.advance float tree faults c w).2.memes id =
        t.text float w.memes id := by
      rw [CallState.memes_advance]
      cases hu : c.update? with
      | none => rfl
      | some u =>
        rw [hu] at htally
        exact Tally.text_apply htally
    rw [hsame, CallState.node_advance h.toMemeRoot (CallState.path_ne_tally htally), h.node_eq]

/-! ### Loading -/

lemma MemeRoot.named_entries (h : MemeRoot r w) : ∀ n ∈ w.fs.entries w.memes.root,
    w.fs.isDirectory (w.memes.root ++ '/' :: n) = true → ∃ id : MemeId, n = id.toStr := by
  intro n hn hdir
  rw [FileSystem.entries, h.resolve_eq] at hn
  obtain ⟨x, hx⟩ := FileTree.exists_node_of_mem_children hn
  obtain ⟨hplain, hmeme⟩ := h.named hx
  have hpath := FileSystem.resolve_below h.resolve_eq h.isDir hplain.2.1
  rw [stepName_of_plain r hplain] at hpath
  rw [FileSystem.isDirectory_of_resolve hpath, decide_eq_true_eq, FileTree.IsDir, hx] at hdir
  exact hmeme (Option.some.inj hdir)

lemma MemeRoot.isDirectory_root (h : MemeRoot r w) : w.fs.isDirectory w.memes.root = true := by
  rw [FileSystem.isDirectory_of_resolve h.resolve_eq, decide_eq_true h.isDir]

namespace Recorded

variable (h : Recorded float r w)

include h

/-- The file of a count, as it is opened. -/
lemma openRead_eq (hid : MemeExists w.fs w.memes.root id) (t : Tally) :
    w.fs.openRead (w.memes.memePath id ++ '/' :: t.name) =
      (t.text float w.memes id).elim .closed .contents := by
  have hpath := h.resolve_file t.plainName_name (h.toMemeRoot.memeExists_iff.mp hid)
  have hnode := h.node_eq id t
  cases htext : t.text float w.memes id with
  | some s =>
    rw [htext] at hnode
    exact FileSystem.openRead_of_node hpath hnode
  | none =>
    rw [htext] at hnode
    apply FileSystem.openRead_of_not_pathExists
    rw [FileSystem.pathExists_of_resolve hpath, hnode]
    rfl

/-- What is counted belongs to a meme that is there. -/
lemma memeExists {s : Str} (hs : t.text float w.memes id = some s) :
    MemeExists w.fs w.memes.root id := by
  have hnode := h.node_eq id t
  rw [hs] at hnode
  exact h.toMemeRoot.memeExists_iff.mpr (FileTree.isDir_of_node hnode)

lemma loadable (hfloat : float.Reads) (hid : MemeExists w.fs w.memes.root id) :
    MemeModule.Loadable float {} w.fs (w.memes.memePath id) := by
  have hopen : ∀ t : Tally, w.fs.openRead (w.memes.memePath id ++ '/' :: t.name) ≠ .directory := by
    intro t
    rw [h.openRead_eq hid]
    cases t.text float w.memes id <;> exact OpenRead.noConfusion
  refine ⟨hopen .views, hopen .ratings, fun data hdata => ?_⟩
  have hratings := (h.openRead_eq hid .ratings).symm.trans hdata
  rw [Tally.text] at hratings
  cases hlookup : w.memes.ratings.lookup id with
  | none =>
    rw [hlookup] at hratings
    cases hratings
  | some rating =>
    rw [hlookup] at hratings
    cases hratings
    obtain ⟨mean, hmean⟩ := hfloat.stof rating.2
    exact ⟨_, MemeModule.readRatings_of_stof rating.1 (hfloat.line rating.2) hmean⟩

/-- The views that are read are those in the table. -/
lemma viewsIn_eq (hid : MemeExists w.fs w.memes.root id) (uninit : MemeModule.Uninit) :
    MemeModule.viewsIn uninit {} w.fs (w.memes.memePath id) = w.memes.viewCounts.lookup id := by
  have hopen : StorageFaults.openRead {} w.fs (w.memes.memePath id ++ "/views".toList) = _ :=
    h.openRead_eq hid .views
  rw [MemeModule.viewsIn, hopen, Tally.text]
  cases w.memes.viewCounts.lookup id with
  | none => rfl
  | some count => exact congrArg some (extractInt_of_stoi (stoi_toStr count) _)

/-- The ratings that are read are printed like those in the table. -/
lemma map_ratingsIn (hfloat : float.Rereads) (hid : MemeExists w.fs w.memes.root id) :
    (MemeModule.ratingsIn float {} w.fs (w.memes.memePath id)).map
        (fun r => toStr r.1 ++ ',' :: float.toStr r.2) = Tally.ratings.text float w.memes id := by
  have hopen : StorageFaults.openRead {} w.fs (w.memes.memePath id ++ "/ratings".toList) = _ :=
    h.openRead_eq hid .ratings
  rw [MemeModule.ratingsIn, hopen, Tally.text]
  cases w.memes.ratings.lookup id with
  | none => rfl
  | some rating =>
    obtain ⟨mean, hmean⟩ := hfloat.stof rating.2
    have hread := MemeModule.readRatings_of_stof rating.1 (hfloat.line rating.2) hmean
    simp only [Option.map_some, Option.elim_some, OpenRead.text, Option.bind_some, hread,
      Except.toOption, hfloat.reprint hmean]

end Recorded

/-- A new module is made from the disk; it has the same counts of views, and prints the same ratings,
and its files say what its tables say. -/
def Reloads (float : FloatArith F) (r : List Str) (w : MemeState F) : Prop :=
  ∀ uninit, ∃ memes, MemeModule.load float {} uninit w.fs w.memes.root = .ok memes ∧
    Recorded float r ⟨w.fs, memes⟩ ∧
    (∀ id, memes.viewCounts.lookup id = w.memes.viewCounts.lookup id) ∧
    ∀ id, Tally.ratings.text float memes id = Tally.ratings.text float w.memes id

lemma Recorded.succeeds_load (hfloat : float.Reads) (hroot : w.memes.root.getLast? ≠ some '/')
    (h : Recorded float r w) (uninit : MemeModule.Uninit) :
    Succeeds (MemeModule.load float {} uninit w.fs w.memes.root) := by
  refine (MemeModule.succeeds_load_iff h.toMemeRoot.isDirectory_root).mpr ?_
  intro name hname
  obtain ⟨hentry, hdir⟩ := MemeModule.mem_subdirectories.mp hname
  rw [MemeModule.entryPath_eq hroot] at hdir ⊢
  obtain ⟨id, rfl⟩ := h.toMemeRoot.named_entries name hentry hdir
  exact h.loadable hfloat hdir

/-- The module that is made has the counts of the one before. -/
lemma Recorded.counts_of_load (hfloat : float.Rereads) (hroot : w.memes.root.getLast? ≠ some '/')
    (h : Recorded float r w) {uninit : MemeModule.Uninit} {memes : MemeModule F}
    (hload : MemeModule.load float {} uninit w.fs w.memes.root = .ok memes) :
    memes.root = w.memes.root ∧
      (∀ id, memes.viewCounts.lookup id = w.memes.viewCounts.lookup id) ∧
      ∀ id, Tally.ratings.text float memes id = Tally.ratings.text float w.memes id := by
  obtain ⟨hsame, -, -, hviews, hratings⟩ := MemeModule.load_eq_ok hroot h.toMemeRoot.named_entries
    h.toMemeRoot.isDirectory_root hload
  refine ⟨hsame, ?_, ?_⟩
  · intro id
    rw [hviews]
    split_ifs with hid
    · exact h.viewsIn_eq hid uninit
    · cases hlookup : w.memes.viewCounts.lookup id with
      | none => rfl
      | some count =>
        have htext : Tally.views.text float w.memes id = some (toStr count) :=
          congrArg (Option.map toStr) hlookup
        exact absurd (h.memeExists htext) hid
  · intro id
    rw [Tally.text, hratings]
    split_ifs with hid
    · exact h.map_ratingsIn hfloat hid
    · cases htext : Tally.ratings.text float w.memes id with
      | none => rfl
      | some s => exact absurd (h.memeExists htext) hid

lemma Recorded.reloads (hfloat : float.Rereads) (hroot : w.memes.root.getLast? ≠ some '/')
    (h : Recorded float r w) : Reloads float r w := by
  intro uninit
  obtain ⟨memes, hload⟩ := h.succeeds_load hfloat.toReads hroot uninit
  obtain ⟨hsame, hviews, hratings⟩ := h.counts_of_load hfloat hroot hload
  refine ⟨memes, hload, ⟨⟨?_, h.isDir, h.named⟩, ?_⟩, hviews, hratings⟩
  · rw [hsame]
    exact h.resolve_eq
  · intro id t
    rw [h.node_eq]
    cases t with
    | views => rw [Tally.text, Tally.text, hviews]
    | ratings => rw [hratings]

/-! ### Runs -/

/-- A view is counted where the directory has been found. -/
lemma CallState.isDirectory_of_advance {c : CallState F}
    (h : (advance float tree faults c w).1 = .incrementViewCount id) :
    w.fs.isDirectory (w.memes.memePath id) = true := by
  cases c with
  | findDirectory id' =>
    rw [advance] at h
    split_ifs at h with hdir
    cases h
    simpa using hdir
  | createDirectory | writeContent | getContent =>
    rw [advance] at h
    split at h <;> cases h
  | findMeme | findCommented | findComments =>
    rw [advance] at h
    split_ifs at h
  | _ => cases h

namespace ConcurrentCalls

variable {I : Type} {s : ConcurrentCalls I F}

/-- Calls that count a view next have found the meme. -/
def Looked (s : ConcurrentCalls I F) : Prop :=
  ∀ i id, s.call i = .incrementViewCount id →
    s.world.fs.isDirectory (s.world.memes.memePath id) = true

lemma looked_start (w : MemeState F) (calls : I → MemeCall) : (start w calls).Looked := by
  intro i id h
  change (calls i).start = _ at h
  cases hcall : calls i <;> rw [hcall] at h <;> cases h

/-- The next step of the call rates a meme that is there, if it rates one. -/
def RatesFound (s : ConcurrentCalls I F) (i : I) : Prop :=
  ∀ id rating, s.call i = .addRating id rating → MemeExists s.world.fs s.world.memes.root id

lemma Looked.finds {i : I} (h : s.Looked) (hrates : s.RatesFound i) :
    (s.call i).Finds s.world := by
  intro u hu id t htally
  cases hcall : s.call i with
  | incrementViewCount id' =>
    rw [hcall] at hu
    cases hu
    cases htally
    exact h i id hcall
  | addRating id' rating =>
    rw [hcall] at hu
    cases hu
    cases htally
    exact hrates id rating hcall
  | generateId content =>
    rw [hcall] at hu
    cases hu
    cases htally
  | _ =>
    rw [hcall] at hu
    cases hu

variable [DecidableEq I]

lemma Looked.step (h : s.Looked) (e : I × StorageFaults) : (step float tree s e).Looked := by
  intro i id hi
  change Function.update s.call e.1 _ i = _ at hi
  change (CallState.advance float tree e.2 (s.call e.1) s.world).2.fs.isDirectory
    ((CallState.advance float tree e.2 (s.call e.1) s.world).2.memes.memePath id) = true
  rw [CallState.memePath_advance]
  apply CallState.isDirectory_advance
  rw [Function.update_apply] at hi
  split_ifs at hi with heq
  · exact CallState.isDirectory_of_advance hi
  · exact h i id hi

lemma memeRoot_run (h : MemeRoot r s.world) (es : List (I × StorageFaults)) :
    MemeRoot r (es.foldl (step float tree) s).world ∧
      (es.foldl (step float tree) s).world.memes.root = s.world.memes.root := by
  induction es generalizing s with
  | nil => exact ⟨h, rfl⟩
  | cons e es ih =>
    obtain ⟨hroot, heq⟩ := @ih (step float tree s e) h.advance
    exact ⟨hroot, heq.trans (CallState.advances (s.call e.1) s.world).root_eq⟩

/-- As long as ratings find their memes, the files say what the tables say. -/
lemma recorded_run (h : Recorded float r s.world) (hlooked : s.Looked)
    {es : List (I × StorageFaults)} (hfaults : ∀ e ∈ es, ∀ id (t : Tally),
      e.2.opening (s.world.memes.memePath id ++ '/' :: t.name) = false)
    (hrates : ∀ es₁ e, es₁ ++ [e] <+: es → (es₁.foldl (step float tree) s).RatesFound e.1) :
    Recorded float r (es.foldl (step float tree) s).world := by
  induction es generalizing s with
  | nil => exact h
  | cons e es ih =>
    have hfinds := hlooked.finds (hrates [] e (List.cons_prefix_cons.mpr ⟨rfl, List.nil_prefix⟩))
    refine ih (h.advance hfinds (hfaults e List.mem_cons_self)) (hlooked.step e) ?_ ?_
    · intro e' he' id t
      have hpath : (step float tree s e).world.memes.memePath id = s.world.memes.memePath id :=
        CallState.memePath_advance _ _ id
      rw [hpath]
      exact hfaults e' (List.mem_cons_of_mem _ he') id t
    · intro es₁ e' hpre
      exact hrates (e :: es₁) e' (List.cons_prefix_cons.mpr ⟨rfl, hpre⟩)

/-- A rating that a new module knows of was given to a meme that is there. -/
lemma ratesFound_of_reloads {e : I × StorageFaults} (hroot : MemeRoot r s.world)
    (h : Reloads float r (step float tree s e).world) : s.RatesFound e.1 := by
  intro id rating hcall
  obtain ⟨memes, -, hrecorded, -, hratings⟩ := h ⟨fun _ => 0, fun _ => 0⟩
  obtain ⟨text, htext⟩ : ∃ text,
      Tally.ratings.text float (step float tree s e).world.memes id = some text := by
    change ∃ text, Tally.ratings.text float
      (CallState.advance float tree e.2 (s.call e.1) s.world).2.memes id = some text
    rw [hcall, CallState.advance, MemeModule.addRating_eq, Tally.text, AList.lookup_insert]
    exact ⟨_, rfl⟩
  have hdir : (step float tree s e).world.fs.tree.IsDir (r ++ [id.toStr]) :=
    hrecorded.toMemeRoot.memeExists_iff.mp (hrecorded.memeExists ((hratings id).trans htext))
  -- the step writes a file, and no directory
  have hnode : (step float tree s e).world.fs.tree.node (r ++ [id.toStr]) = _ :=
    CallState.node_advance hroot (by rw [hcall]; simp [CallState.path])
  rw [FileTree.IsDir, hnode] at hdir
  exact hroot.memeExists_iff.mpr hdir

/-- Whatever the order of the steps, and wherever between two of them the calls are cut off, a new
module reads the counts back from the disk, unless a file of a count could not be opened: exactly as
long as no call rates a meme before its directory is there. -/
theorem run_records_counts (hfloat : float.Rereads) (hroot : w.memes.root.getLast? ≠ some '/')
    (h : Recorded float r w) (calls : I → MemeCall) {es : List (I × StorageFaults)}
    (hfaults : ∀ e ∈ es, ∀ id (t : Tally),
      e.2.opening (w.memes.memePath id ++ '/' :: t.name) = false) :
    (∀ es₁, es₁ <+: es → Reloads float r (es₁.foldl (step float tree) (start w calls)).world) ↔
      ∀ es₁ e, es₁ ++ [e] <+: es →
        (es₁.foldl (step float tree) (start w calls)).RatesFound e.1 := by
  constructor
  · intro hreloads es₁ e hpre
    have hlast := hreloads (es₁ ++ [e]) hpre
    rw [List.foldl_append] at hlast
    exact ratesFound_of_reloads (memeRoot_run (s := start w calls) h.toMemeRoot es₁).1 hlast
  · intro hrates es₁ hpre
    have hrecorded : Recorded float r (es₁.foldl (step float tree) (start w calls)).world :=
      recorded_run h (looked_start w calls) (fun e he => hfaults e (hpre.subset he))
        fun es₂ e hpre' => hrates es₂ e (hpre'.trans hpre)
    refine hrecorded.reloads hfloat ?_
    have hsame : (es₁.foldl (step float tree) (start w calls)).world.memes.root = w.memes.root :=
      (memeRoot_run (s := start w calls) h.toMemeRoot es₁).2
    rw [hsame]
    exact hroot

/-- A root without entries, and the tables of the module that is made from it. -/
lemma recorded_of_empty {fs : FileSystem} {root : Str} (hresolve : fs.resolve root = some r)
    (hdir : fs.tree.IsDir r) (hempty : fs.entries root = []) :
    Recorded float r ⟨fs, ⟨root, 0, ∅, ∅⟩⟩ := by
  have hnone : ∀ n, fs.tree.node (r ++ [n]) = none := by
    intro n
    by_contra hsome
    obtain ⟨x, hx⟩ := Option.ne_none_iff_exists'.mp hsome
    have hmem := FileTree.mem_children_iff.mpr (FileTree.mem_nodes_of_node hx)
    rw [FileSystem.entries, hresolve] at hempty
    rw [show fs.tree.children r = [] from hempty] at hmem
    cases hmem
  refine ⟨⟨hresolve, hdir, fun hx => ?_⟩, fun id t => ?_⟩
  · rw [hnone] at hx
    cases hx
  · have htext : t.text float ⟨root, 0, ∅, ∅⟩ id = none := by
      cases t <;> rfl
    rw [htext]
    by_contra hsome
    obtain ⟨x, hx⟩ := Option.ne_none_iff_exists'.mp hsome
    have hparent := FileTree.isDir_of_node hx
    rw [FileTree.IsDir, hnone] at hparent
    cases hparent

/-- A meme is created, and rated while it is. -/
def newMeme : Bool → MemeCall
  | true => .create sampleMeme
  | false => .addRating 1 1

/-- The directory is made, the rating is given, and the content is not yet written. -/
theorem run_records_counts_newMeme :
    ∃ w : MemeState CInt, ([(true, {}), (true, {}), (false, {})].foldl
        (step wholeFloat sampleTree) (start ⟨sampleDisk, ⟨['m'], 0, ∅, ∅⟩⟩ newMeme)).world = w ∧
      w.memes.ratings.lookup 1 = some (1, 1) ∧ Reloads wholeFloat [['m']] w := by
  refine ⟨_, rfl, rfl, ?_⟩
  refine (run_records_counts wholeFloat_rereads (by decide)
    (recorded_of_empty (by decide) (by decide) rfl) newMeme ?_).mpr ?_ _ List.prefix_rfl
  · intro e he id t
    simp only [List.mem_cons, List.not_mem_nil, or_false] at he
    rcases he with rfl | rfl | rfl <;> rfl
  · intro es₁ e hpre id rating hcall
    obtain _ | ⟨e₁, _ | ⟨e₂, _ | ⟨e₃, es₁⟩⟩⟩ := es₁
    · obtain ⟨rfl, -⟩ := List.cons_prefix_cons.mp hpre
      cases hcall
    · obtain ⟨rfl, hpre₁⟩ := List.cons_prefix_cons.mp hpre
      obtain ⟨rfl, -⟩ := List.cons_prefix_cons.mp hpre₁
      cases hcall
    · obtain ⟨rfl, hpre₁⟩ := List.cons_prefix_cons.mp hpre
      obtain ⟨rfl, hpre₂⟩ := List.cons_prefix_cons.mp hpre₁
      obtain ⟨rfl, -⟩ := List.cons_prefix_cons.mp hpre₂
      cases hcall
      decide
    · have hlength := hpre.length_le
      simp only [List.length_append, List.length_cons, List.length_nil] at hlength
      omega

end ConcurrentCalls

end SocialNetworkApp
