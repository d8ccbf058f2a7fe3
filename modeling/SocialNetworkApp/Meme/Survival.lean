import SocialNetworkApp.Meme.Ratings

/-!
# Ratings over restarts

The pair of a meme is read from its file when a new module is made. The file has the number of the
ratings as it is, and their mean with six decimals.
-/

namespace SocialNetworkApp

open SocialNetworkApp.Core

namespace Core

lemma exists_roundTo_mul (places : Nat) (x : ℚ) : ∃ k : ℤ, roundTo places x * 10 ^ places = k := by
  have hpos : (10 : ℚ) ^ places ≠ 0 := pow_ne_zero _ (by norm_num)
  rw [roundTo]
  split_ifs
  · exact ⟨-roundEven (|x| * 10 ^ places), by rw [neg_mul, div_mul_cancel₀ _ hpos, Int.cast_neg]⟩
  · exact ⟨roundEven (|x| * 10 ^ places), div_mul_cancel₀ _ hpos⟩

/-- What is rounded is not rounded again. -/
@[simp] lemma roundTo_roundTo (places : Nat) (x : ℚ) :
    roundTo places (roundTo places x) = roundTo places x :=
  roundTo_eq_self_iff.mpr (exists_roundTo_mul places x)

end Core

lemma exactFloat_reads : exactFloat.Reads where
  stof x := ⟨roundTo 6 x, readDecimal_printFixed (by decide) x⟩
  line x := newline_not_mem_printFixed 6 x

variable {F : Type} {float : FloatArith F} {tree : PropertyTree F} {faults : StorageFaults}
  {p : List Str} {root : Str} {s : MemeStore} {id : MemeId}

/-- Where the ratings of a meme are. -/
def ratingsNode (p : List Str) (id : MemeId) : List Str := p ++ [id.toStr] ++ [MemeFile.ratings.name]

lemma ratingsNode_eq (p : List Str) (id : MemeId) :
    ratingsNode p id = p ++ [id.toStr, "ratings".toList] := List.append_assoc p _ _

/-! ### Calls that are not about ratings -/

section

variable {w : MemeState F}

lemma resolve_memePath_ne_ratingsNode {fs : FileSystem} {memes : MemeModule F} {id' : MemeId} :
    fs.resolve (memes.memePath id') ≠ some (ratingsNode p id) := by
  intro h
  have hid := MemeId.plainName_toStr id'
  obtain ⟨r, hr⟩ := FileSystem.exists_stepName_of_resolve hid.2.1 h
  rw [stepName_of_plain _ hid, ratingsNode] at hr
  have hname : [MemeFile.ratings.name] = [id'.toStr] := List.append_inj_right' hr rfl
  have hmem : 'r' ∈ id'.toStr := by
    rw [← (List.cons.inj hname).1]
    exact List.mem_cons_self
  exact absurd (isDigit_of_mem_toDigits hmem) (by decide)

lemma resolve_memeFile_ne_ratingsNode {fs : FileSystem} {memes : MemeModule F} {id' : MemeId}
    {n : Str} (hn : PlainName n) (hne : n ≠ "ratings".toList) :
    fs.resolve (memes.memePath id' ++ '/' :: n) ≠ some (ratingsNode p id) := by
  intro h
  obtain ⟨r, hr⟩ := exists_of_resolve_memeFile hn h
  rw [ratingsNode_eq] at hr
  have hpair : [id.toStr, "ratings".toList] = [id'.toStr, n] := List.append_inj_right' hr rfl
  exact hne (List.cons.inj (List.cons.inj hpair).2).1.symm

lemma resolve_comment_ne_ratingsNode {fs : FileSystem} {memes : MemeModule F} {id' : MemeId}
    {n : Str} (hn : PlainName n) :
    fs.resolve (memes.memePath id' ++ '/' :: "comments".toList ++ '/' :: n) ≠
      some (ratingsNode p id) := by
  intro h
  obtain ⟨r, hr⟩ := exists_of_resolve_comment hn h
  rw [ratingsNode_eq] at hr
  have hpair : [id.toStr, "ratings".toList] = ["comments".toList, n] := List.append_inj_right' hr rfl
  exact id.toStr_ne_comments (List.cons.inj hpair).1

namespace MemeModule

lemma node_create (content : Str) :
    (create faults content w).2.fs.tree.node (ratingsNode p id) =
      w.fs.tree.node (ratingsNode p id) := by
  simp only [create]
  have hmade : (BoostFileSystem.createDirectory faults w.fs
      (memePath { w.memes with idCount := w.memes.idCount + 1 }
        (w.memes.idCount + 1))).2.tree.node (ratingsNode p id) = w.fs.tree.node (ratingsNode p id) :=
    BoostFileSystem.node_createDirectory resolve_memePath_ne_ratingsNode
  generalize BoostFileSystem.createDirectory faults w.fs _ = made at hmade ⊢
  obtain ⟨status, fs⟩ := made
  cases status with
  | success =>
    have hwritten : (BoostFileSystem.writeFile faults fs
        (memePath { w.memes with idCount := w.memes.idCount + 1 } (w.memes.idCount + 1) ++
          "/content".toList) content).2.tree.node (ratingsNode p id) =
        w.fs.tree.node (ratingsNode p id) :=
      (BoostFileSystem.node_writeFile
        (resolve_memeFile_ne_ratingsNode (by decide) (by decide))).trans hmade
    simp only
    generalize BoostFileSystem.writeFile faults fs _ content = written at hwritten ⊢
    obtain ⟨status, fs'⟩ := written
    cases status <;> exact hwritten
  | not_found | conflict | error => exact hmade

lemma node_incrementViewCount (id' : MemeId) :
    (incrementViewCount faults id' w).fs.tree.node (ratingsNode p id) =
      w.fs.tree.node (ratingsNode p id) := by
  rw [incrementViewCount_eq]
  exact BoostFileSystem.node_writeFile (resolve_memeFile_ne_ratingsNode (by decide) (by decide))

lemma node_addComment {uuid : Str} (hplain : PlainName uuid) (id' : MemeId) (comment : Comment) :
    (addComment faults uuid id' comment w).fs.tree.node (ratingsNode p id) =
      w.fs.tree.node (ratingsNode p id) := by
  have hmade : (BoostFileSystem.createDirectory faults w.fs
      (w.memes.memePath id' ++ "/comments".toList)).2.tree.node (ratingsNode p id) =
        w.fs.tree.node (ratingsNode p id) :=
    BoostFileSystem.node_createDirectory
      (resolve_memeFile_ne_ratingsNode (by decide) (by decide))
  simp only [addComment]
  split_ifs
  · rfl
  · exact (BoostFileSystem.node_writeFile (resolve_comment_ne_ratingsNode hplain)).trans hmade
  · exact BoostFileSystem.node_writeFile (resolve_comment_ne_ratingsNode hplain)

end MemeModule

end

namespace OnDisk

variable {fs : FileSystem} (h : OnDisk float p root fs s)

include h

/-- Where there is no meme, there are no ratings. -/
lemma node_ratings_of_none (hm : s id = none) : fs.tree.node (ratingsNode p id) = none := by
  have hholds := h.holds id
  rw [hm] at hholds
  by_contra hnode
  obtain ⟨x, hx⟩ := Option.ne_none_iff_exists'.mp hnode
  have hdir := FileTree.isDir_of_append (List.cons_ne_nil _ _) hx
  rw [FileTree.IsDir, show fs.tree.node _ = none from hholds] at hdir
  cases hdir

lemma exists_of_node_ratings {x : Node Str} (hx : fs.tree.node (ratingsNode p id) = some x) :
    ∃ m, s id = some m := by
  cases hm : s id with
  | none =>
    rw [h.node_ratings_of_none hm] at hx
    cases hx
  | some m => exact ⟨m, rfl⟩

lemma ratingsIn_of_none {m : MemeRecord} (hm : s id = some m)
    (hnone : fs.tree.node (ratingsNode p id) = none) :
    MemeModule.ratingsIn float {} fs (root ++ '/' :: id.toStr) = none := by
  have hopen : fs.openRead (root ++ '/' :: id.toStr ++ "/ratings".toList) = .closed := by
    apply FileSystem.openRead_of_not_pathExists
    have hpath := FileSystem.pathExists_of_resolve (h.resolve_file hm .ratings)
    rw [← ratingsNode, hnone] at hpath
    exact hpath
  rw [MemeModule.ratingsIn, show StorageFaults.openRead {} fs _ = fs.openRead _ from rfl, hopen]
  rfl

end OnDisk

/-- What is read from a file of ratings. -/
lemma OnDisk.ratingsIn_of_file {fs : FileSystem} (h : OnDisk exactFloat p root fs s) {m : MemeRecord}
    (hm : s id = some m) {count : CInt} {mean : ℚ}
    (hfile : fs.tree.node (ratingsNode p id) =
      some (.file (toStr count ++ ',' :: printFixed 6 mean))) :
    MemeModule.ratingsIn exactFloat {} fs (root ++ '/' :: id.toStr) =
      some (count, roundTo 6 mean) := by
  have hopen : fs.openRead (root ++ '/' :: id.toStr ++ "/ratings".toList) =
      .contents (toStr count ++ ',' :: printFixed 6 mean) :=
    FileSystem.openRead_of_node (h.resolve_file hm .ratings) hfile
  have hread : MemeModule.readRatings exactFloat (toStr count ++ ',' :: printFixed 6 mean) =
      .ok (count, roundTo 6 mean) :=
    MemeModule.readRatings_of_stof count (exactFloat_reads.line mean)
      (readDecimal_printFixed (by decide) mean)
  rw [MemeModule.ratingsIn, show StorageFaults.openRead {} fs _ = fs.openRead _ from rfl, hopen,
    OpenRead.text, Option.bind_some, hread]
  rfl

/-- A rating goes to the file of its meme, if the meme is there. -/
lemma Kept.node_addRating {w : MemeState F} (h : Kept float p root w s) (id' : MemeId)
    (rating : CInt) :
    (MemeModule.addRating float {} id' rating w).fs.tree.node (ratingsNode p id) =
      if id = id' ∧ (s id).isSome = true then
        some (.file (toStr (MemeModule.rated float (w.memes.ratings.lookup id') rating).1 ++
          ',' :: float.toStr (MemeModule.rated float (w.memes.ratings.lookup id') rating).2))
      else w.fs.tree.node (ratingsNode p id) := by
  have hpath : w.memes.memePath id' ++ "/ratings".toList =
      root ++ '/' :: id'.toStr ++ '/' :: MemeFile.ratings.name := by
    rw [MemeModule.memePath, h.root_eq]
    rfl
  rw [MemeModule.addRating_eq, hpath]
  cases hm : s id' with
  | none =>
    rw [h.disk.writeFile_of_none hm, if_neg]
    rintro ⟨rfl, hsome⟩
    rw [hm] at hsome
    cases hsome
  | some m =>
    obtain ⟨fs', hwrite, hsets⟩ := h.disk.writeFile hm .ratings
      (toStr (MemeModule.rated float (w.memes.ratings.lookup id') rating).1 ++
        ',' :: float.toStr (MemeModule.rated float (w.memes.ratings.lookup id') rating).2)
      (h.disk.not_isDir_ratings hm)
    rw [hwrite]
    by_cases hid : id = id'
    · subst hid
      rw [if_pos ⟨rfl, by rw [hm]; rfl⟩]
      exact hsets.node_self
    · rw [if_neg fun hand => hid hand.1]
      refine hsets.node_ne fun hnode => hid ?_
      have hpair : [id.toStr, "ratings".toList] = [id'.toStr, "ratings".toList] := by
        rw [ratingsNode_eq, List.append_assoc] at hnode
        exact List.append_cancel_left hnode
      exact MemeId.toStr_injective (List.cons.inj hpair).1

/-! ### What is kept -/

/-- The ratings in the files are those in memory, but for what is rounded. -/
def RatingsKept (p : List Str) (w : MemeState ℚ) : Prop :=
  ∀ id x, w.fs.tree.node (ratingsNode p id) = some x →
    ∃ count mean mean', w.memes.ratings.lookup id = some (count, mean) ∧
      x = .file (toStr count ++ ',' :: printFixed 6 mean') ∧ roundTo 6 mean' = roundTo 6 mean

namespace RatingsKept

variable {tree : PropertyTree ℚ} {w w' : MemeState ℚ}

lemma of_eq (h : RatingsKept p w)
    (hnode : ∀ id, w'.fs.tree.node (ratingsNode p id) = w.fs.tree.node (ratingsNode p id))
    (hratings : w'.memes.ratings = w.memes.ratings) : RatingsKept p w' := by
  intro id x hx
  rw [hratings]
  exact h id x ((hnode id).symm.trans hx)

lemma addRating (h : RatingsKept p w) (hkept : Kept exactFloat p root w s) (id : MemeId)
    (rating : CInt) : RatingsKept p (MemeModule.addRating exactFloat {} id rating w) := by
  intro id' x hx
  rw [hkept.node_addRating] at hx
  rw [MemeModule.addRating_eq]
  split_ifs at hx with hid
  · obtain ⟨rfl, -⟩ := hid
    exact ⟨_, _, _, AList.lookup_insert _, (Option.some.inj hx).symm, rfl⟩
  · by_cases heq : id' = id
    · subst heq
      exact absurd ⟨rfl, Option.isSome_iff_exists.mpr (hkept.disk.exists_of_node_ratings hx)⟩ hid
    · rw [AList.lookup_insert_ne heq]
      exact h id' x hx

/-- The ratings of a meme go with it. -/
lemma remove (h : RatingsKept p w) (hkept : Kept exactFloat p root w s) (id : MemeId) :
    RatingsKept p (MemeModule.remove {} id w) := by
  have hdisk := (hkept.raised.remove id).disk
  intro id' x hx
  obtain ⟨m, hm⟩ := hdisk.exists_of_node_ratings hx
  have hid : id' ≠ id := by
    rintro rfl
    rw [MemeStore.remove, Function.update_self] at hm
    cases hm
  rw [MemeModule.remove, AList.lookup_erase_ne hid]
  exact h id' x (BoostFileSystem.node_deleteDirectory hx)

/-- A new module reads what is in the files. -/
lemma load (h : RatingsKept p w) (hkept : Kept exactFloat p root w s)
    (hroot : root.getLast? ≠ some '/') {uninit : MemeModule.Uninit} {memes : MemeModule ℚ}
    (hload : MemeModule.load exactFloat {} uninit w.fs root = .ok memes) :
    RatingsKept p { w with memes } := by
  obtain ⟨-, -, -, -, hratings⟩ :=
    MemeModule.load_eq_ok hroot hkept.disk.named_entries hkept.disk.isDirectory_root hload
  intro id x hx
  obtain ⟨m, hm⟩ := hkept.disk.exists_of_node_ratings hx
  obtain ⟨count, mean, mean', -, rfl, hround⟩ := h id x hx
  refine ⟨count, roundTo 6 mean', mean', ?_, rfl, (roundTo_roundTo 6 mean').symm⟩
  rw [hratings, if_pos (hkept.memeExists_iff.mpr ⟨m, hm⟩), hkept.disk.ratingsIn_of_file hm hx]

/-- No call makes a difference between the files and what is in memory. -/
lemma perform (h : RatingsKept p w) (hkept : Kept exactFloat p root w s)
    (hroot : root.getLast? ≠ some '/') {op : MemeOp} {result : Option MemeId}
    (hperform : op.perform exactFloat tree w = .ok (result, w')) : RatingsKept p w' := by
  cases op with
  | create content =>
    obtain rfl : (MemeModule.create {} content w).2 = w' :=
      congrArg Prod.snd (Except.ok.inj hperform)
    refine h.of_eq (fun _ => MemeModule.node_create content) ?_
    rw [MemeModule.memes_create]
  | get id =>
    obtain ⟨found, hget⟩ := MemeOp.exists_of_perform_get hperform
    rcases MemeModule.get_cases hget with rfl | rfl
    · exact h
    · refine h.of_eq (fun _ => MemeModule.node_incrementViewCount id) ?_
      rw [MemeModule.incrementViewCount_eq]
  | addComment uuid id comment =>
    cases hperform
    refine h.of_eq (fun _ => MemeModule.node_addComment uuid.2 id comment) ?_
    rw [MemeModule.memes_addComment]
  | addRating id rating =>
    cases hperform
    exact h.addRating hkept id rating
  | remove id =>
    cases hperform
    exact h.remove hkept id
  | restart uninit =>
    obtain ⟨memes, hload, rfl⟩ := MemeOp.exists_of_perform_restart hperform
    rw [hkept.root_eq] at hload
    exact h.load hkept hroot hload

end RatingsKept

/-! ### Restarts -/

/-- A new module has the same pair for the meme. -/
def SurvivesRestart (root : Str) (id : MemeId) (w : MemeState ℚ) : Prop :=
  ∀ uninit, ∃ memes, MemeModule.load exactFloat {} uninit w.fs root = .ok memes ∧
    memes.ratings.lookup id = w.memes.ratings.lookup id

/-- The meme has a file of ratings. -/
def Rated (root : Str) (id : MemeId) (fs : FileSystem) : Prop :=
  fs.pathExists (root ++ '/' :: id.toStr ++ "/ratings".toList) = true

lemma OnDisk.rated_iff {fs : FileSystem} (h : OnDisk float p root fs s) {m : MemeRecord}
    (hm : s id = some m) : Rated root id fs ↔ ∃ x, fs.tree.node (ratingsNode p id) = some x := by
  have hpath := FileSystem.pathExists_of_resolve (h.resolve_file hm .ratings)
  rw [← Option.isSome_iff_exists, ratingsNode, ← hpath]
  rfl

section

variable {w : MemeState ℚ} {m : MemeRecord}

/-- A pair survives if it is what the file says. -/
lemma Kept.survives_iff (h : Kept exactFloat p root w s) (hroot : root.getLast? ≠ some '/')
    (hm : s id = some m) : SurvivesRestart root id w ↔
      MemeModule.ratingsIn exactFloat {} w.fs (root ++ '/' :: id.toStr) =
        w.memes.ratings.lookup id := by
  have hload : ∀ uninit, ∃ memes, MemeModule.load exactFloat {} uninit w.fs root = .ok memes ∧
      memes.ratings.lookup id =
        MemeModule.ratingsIn exactFloat {} w.fs (root ++ '/' :: id.toStr) := by
    intro uninit
    obtain ⟨memes, hload, -⟩ := h.disk.load exactFloat_reads hroot uninit
    obtain ⟨-, -, -, -, hratings⟩ :=
      MemeModule.load_eq_ok hroot h.disk.named_entries h.disk.isDirectory_root hload
    exact ⟨memes, hload, by rw [hratings, if_pos (h.memeExists_iff.mpr ⟨m, hm⟩)]⟩
  constructor
  · intro hsurvives
    obtain ⟨memes, hmemes, hlookup⟩ := hload ⟨fun _ => 0, fun _ => 0⟩
    obtain ⟨memes', hmemes', hlookup'⟩ := hsurvives ⟨fun _ => 0, fun _ => 0⟩
    obtain rfl := Except.ok.inj (hmemes.symm.trans hmemes')
    exact hlookup.symm.trans hlookup'
  · intro heq uninit
    obtain ⟨memes, hmemes, hlookup⟩ := hload uninit
    exact ⟨memes, hmemes, hlookup.trans heq⟩

/-- A pair survives if it is in the file, and its mean needs no rounding. -/
lemma RatingsKept.survives_iff (h : RatingsKept p w) (hkept : Kept exactFloat p root w s)
    (hroot : root.getLast? ≠ some '/') (hm : s id = some m) :
    SurvivesRestart root id w ↔ ∀ count mean, w.memes.ratings.lookup id = some (count, mean) →
      Rated root id w.fs ∧ ∃ k : ℤ, mean * 10 ^ 6 = k := by
  rw [hkept.survives_iff hroot hm, hkept.disk.rated_iff hm]
  cases hnode : w.fs.tree.node (ratingsNode p id) with
  | none =>
    rw [hkept.disk.ratingsIn_of_none hm hnode]
    constructor
    · intro hnone count mean hlookup
      exact absurd (hnone.trans hlookup) (Option.some_ne_none _).symm
    · intro hrated
      cases hlookup : w.memes.ratings.lookup id with
      | none => rfl
      | some pair =>
        obtain ⟨⟨x, hx⟩, -⟩ := hrated pair.1 pair.2 hlookup
        exact absurd hx (Option.some_ne_none x).symm
  | some x =>
    obtain ⟨count, mean, mean', hlookup, rfl, hround⟩ := h id x hnode
    rw [hkept.disk.ratingsIn_of_file hm hnode, hlookup, hround, Option.some.injEq, Prod.mk.injEq,
      roundTo_eq_self_iff]
    constructor
    · rintro ⟨-, hk⟩ count' mean'' hpair
      obtain ⟨rfl, rfl⟩ := Prod.mk.inj (Option.some.inj hpair)
      exact ⟨⟨_, rfl⟩, hk⟩
    · exact fun hall => ⟨rfl, (hall count mean rfl).2⟩

/-- Ratings that are given without failures go to the files of the memes that are there. -/
lemma RatingsKept.performCalls {calls : List RatingCall} (hfaults : ∀ c ∈ calls, c.faults = {})
    (h : RatingsKept p w) (hkept : Kept exactFloat p root w s) (hm : s id = some m)
    (hfile : ∀ pair, w.memes.ratings.lookup id = some pair →
      ∃ x, w.fs.tree.node (ratingsNode p id) = some x) :
    Kept exactFloat p root (RatingCall.perform exactFloat calls w) s ∧
      RatingsKept p (RatingCall.perform exactFloat calls w) ∧
      ∀ pair, (RatingCall.perform exactFloat calls w).memes.ratings.lookup id = some pair →
        ∃ x, (RatingCall.perform exactFloat calls w).fs.tree.node (ratingsNode p id) = some x := by
  induction calls generalizing w with
  | nil => exact ⟨hkept, h, hfile⟩
  | cons c calls ih =>
    rw [RatingCall.perform, List.foldl_cons, ← RatingCall.perform,
      hfaults c List.mem_cons_self]
    refine ih (fun c' hc' => hfaults c' (List.mem_cons_of_mem _ hc'))
      (h.addRating hkept c.id c.rating) (hkept.addRating c.id c.rating) ?_
    intro pair hpair
    rw [hkept.node_addRating, hm]
    split_ifs with hid
    · exact ⟨_, rfl⟩
    · rw [MemeModule.addRating_eq,
        AList.lookup_insert_ne fun heq => hid ⟨heq, rfl⟩] at hpair
      exact hfile pair hpair

/-- The pair of ratings that are the first survives if their number divides a million times their
sum. -/
lemma RatingsKept.survives_perform_iff {calls : List RatingCall} (h : RatingsKept p w)
    (hkept : Kept exactFloat p root w s) (hroot : root.getLast? ≠ some '/') (hm : s id = some m)
    (hfaults : ∀ c ∈ calls, c.faults = {}) (hnone : w.memes.ratings.lookup id = none)
    (hlt : (RatingCall.ratingsOf id calls).length < 2 ^ 31) :
    SurvivesRestart root id (RatingCall.perform exactFloat calls w) ↔
      ∃ k : ℤ, ratingSum (RatingCall.ratingsOf id calls) * 10 ^ 6 =
        k * (RatingCall.ratingsOf id calls).length := by
  obtain ⟨hkept', hratings', hfile⟩ := h.performCalls hfaults hkept hm
    fun pair hpair => absurd (hnone.symm.trans hpair) (Option.some_ne_none pair).symm
  rw [hratings'.survives_iff hkept' hroot hm]
  by_cases hne : RatingCall.ratingsOf id calls = []
  · have hlookup : (RatingCall.perform exactFloat calls w).memes.ratings.lookup id = none := by
      rw [RatingCall.lookup_perform, hne, hnone]
      rfl
    simp only [hlookup, hne, ratingSum]
    simp
  · obtain ⟨count, -, hlookup⟩ := RatingCall.lookup_perform_exactFloat hnone hne hlt
    have hpos : ((RatingCall.ratingsOf id calls).length : ℚ) ≠ 0 :=
      Nat.cast_ne_zero.mpr fun hzero => hne (List.length_eq_zero_iff.mp hzero)
    have hrated := (hkept'.disk.rated_iff hm).mpr (hfile _ hlookup)
    simp only [hlookup, Option.some.injEq, Prod.mk.injEq]
    constructor
    · intro hall
      obtain ⟨-, k, hk⟩ := hall _ _ ⟨rfl, rfl⟩
      refine ⟨k, ?_⟩
      rw [← hk]
      field_simp
    · rintro ⟨k, hk⟩ count' mean ⟨rfl, rfl⟩
      refine ⟨hrated, k, ?_⟩
      rw [div_mul_eq_mul_div, hk, mul_div_cancel_right₀ _ hpos]

end

/-- In any run, the pair of a meme that is there survives a restart exactly if there is none, or if it
is in its file and its mean has no more than six decimals. So the ratings of a meme without any
survive exactly if their number divides a million times their sum. -/
theorem survivesRestart_iff {tree : PropertyTree ℚ} {uninit : MemeModule.Uninit} {fs : FileSystem}
    {ops : List MemeOp} {w : MemeState ℚ} (hroot : root.getLast? ≠ some '/')
    (hdir : fs.isDirectory root = true) (hempty : fs.entries root = [])
    (hdrawn : (ops.filterMap MemeOp.drawn).Nodup)
    (hrun : MemeOp.runFrom exactFloat tree uninit fs root ops = .ok (w, s))
    (hexists : MemeExists w.fs root id) :
    (SurvivesRestart root id w ↔ ∀ count mean, w.memes.ratings.lookup id = some (count, mean) →
      Rated root id w.fs ∧ ∃ k : ℤ, mean * 10 ^ 6 = k) ∧
    ∀ calls : List RatingCall, (∀ c ∈ calls, c.faults = {}) → w.memes.ratings.lookup id = none →
      (RatingCall.ratingsOf id calls).length < 2 ^ 31 →
      (SurvivesRestart root id (RatingCall.perform exactFloat calls w) ↔
        ∃ k : ℤ, ratingSum (RatingCall.ratingsOf id calls) * 10 ^ 6 =
          k * (RatingCall.ratingsOf id calls).length) := by
  obtain ⟨p, hkept, hratings, -⟩ := Kept.runFrom (I := RatingsKept) hroot
    (fun hkept hw hperform => hw.perform hkept hroot hperform)
    (fun hkept id x hx => absurd (hkept.disk.exists_of_node_ratings hx) (by simp))
    hdir hempty hdrawn hrun
  obtain ⟨m, hm⟩ := hkept.memeExists_iff.mp hexists
  exact ⟨hratings.survives_iff hkept hroot hm, fun calls hfaults hnone hlt =>
    hratings.survives_perform_iff hkept hroot hm hfaults hnone hlt⟩

theorem survivesRestart_iff_twoRatings :
    ∃ w s, MemeOp.runFrom exactFloat sampleTree ⟨fun _ => 0, fun _ => 0⟩ sampleDisk ['m']
        [.create sampleMeme] = .ok (w, s) ∧
      (SurvivesRestart ['m'] 1 w ↔ ∀ count mean, w.memes.ratings.lookup 1 = some (count, mean) →
        Rated ['m'] 1 w.fs ∧ ∃ k : ℤ, mean * 10 ^ 6 = k) ∧
      (SurvivesRestart ['m'] 1 (RatingCall.perform exactFloat [⟨1, 1, {}⟩, ⟨1, CInt.wrap 2, {}⟩] w) ↔
        ∃ k : ℤ, ratingSum [1, CInt.wrap 2] * 10 ^ 6 = k * 2) := by
  obtain ⟨w, s, hrun, hexists, hnone⟩ : ∃ w s, MemeOp.runFrom exactFloat sampleTree
      ⟨fun _ => 0, fun _ => 0⟩ sampleDisk ['m'] [.create sampleMeme] = .ok (w, s) ∧
      MemeExists w.fs ['m'] 1 ∧ w.memes.ratings.lookup 1 = none := by
    refine ⟨_, _, rfl, ?_, ?_⟩ <;> decide +kernel
  have hdrawn : ([MemeOp.create sampleMeme].filterMap MemeOp.drawn).Nodup := List.nodup_nil
  obtain ⟨hpair, hcalls⟩ := survivesRestart_iff (by decide) rfl rfl hdrawn hrun hexists
  refine ⟨w, s, hrun, hpair, ?_⟩
  exact hcalls [⟨1, 1, {}⟩, ⟨1, CInt.wrap 2, {}⟩] (by simp) hnone (by decide)

/-- A meme that is given the ratings 1, 1 and 2. -/
def sampleThirds : List MemeOp :=
  [.create sampleMeme, .addRating 1 1, .addRating 1 1, .addRating 1 (CInt.wrap 2)]

/-- The mean 4 / 3 comes back as 1.333333. -/
theorem not_survivesRestart :
    ∃ w s, MemeOp.runFrom exactFloat sampleTree ⟨fun _ => 0, fun _ => 0⟩ sampleDisk ['m']
        sampleThirds = .ok (w, s) ∧ MemeExists w.fs ['m'] 1 ∧
      w.memes.ratings.lookup 1 = some (CInt.wrap 3, 4 / 3) ∧
      (MemeModule.load exactFloat {} ⟨fun _ => 0, fun _ => 0⟩ w.fs ['m']).toOption.map
        (fun memes => memes.ratings.lookup 1) = some (some (CInt.wrap 3, 1333333 / 1000000)) ∧
      ¬ SurvivesRestart ['m'] 1 w := by
  obtain ⟨w, s, hrun, hexists, hlookup, hload⟩ :
      ∃ w s, MemeOp.runFrom exactFloat sampleTree ⟨fun _ => 0, fun _ => 0⟩ sampleDisk ['m']
          sampleThirds = .ok (w, s) ∧ MemeExists w.fs ['m'] 1 ∧
        w.memes.ratings.lookup 1 = some (CInt.wrap 3, 4 / 3) ∧
        (MemeModule.load exactFloat {} ⟨fun _ => 0, fun _ => 0⟩ w.fs ['m']).toOption.map
          (fun memes => memes.ratings.lookup 1) =
            some (some (CInt.wrap 3, 1333333 / 1000000)) := by
    refine ⟨_, _, rfl, ?_, ?_, ?_⟩ <;> decide +kernel
  refine ⟨w, s, hrun, hexists, hlookup, hload, fun hsurvives => ?_⟩
  obtain ⟨memes, hmemes, hsame⟩ := hsurvives ⟨fun _ => 0, fun _ => 0⟩
  rw [hmemes, Except.toOption, Option.map_some, hsame, hlookup] at hload
  exact absurd hload (by decide +kernel)

end SocialNetworkApp
