import SocialNetworkApp.Core.Run
import SocialNetworkApp.Meme.Refinement

/-!
# What the listings show

The listings go through the ids from one to the last one, and show `-1` for a meme without an entry in
the table of views. They show the memes there are, with the number of times each was served, as long
as the memes are those ids, each was served, and none comes or goes.
-/

namespace SocialNetworkApp

open SocialNetworkApp.Core

namespace MemeId

lemma toNat_ofCInt (n : CInt) : ((ofCInt n).toNat : Int) = n.val % 2 ^ 32 := by
  rw [ofCInt, UInt32.ofInt, UInt32.toNat_ofNat']
  omega

lemma ofCInt_toCInt (id : MemeId) : ofCInt id.toCInt = id := by
  have hsize := id.toNat_lt
  rw [← UInt32.toNat_inj, ← Int.ofNat_inj, toNat_ofCInt]
  simp only [toCInt, CInt.wrap]
  omega

end MemeId

variable {F : Type} {float : FloatArith F} {tree : PropertyTree F} {root : Str}
  {memes : MemeModule F} {w : MemeState F} {id : MemeId}

namespace MemeHandler

/-- The lines of a listing: an id and the views shown for it. -/
def listing (memes : MemeModule F) (shown : MemeId → Bool) : List (CInt × CInt) :=
  ((listedIds memes).filter fun n => shown (MemeId.ofCInt n)).map fun n =>
    (n, memes.getViewCount (MemeId.ofCInt n))

/-- The id `GET /random` takes for the value of `rand()`. -/
def randomId (memes : MemeModule F) (random : Nat) : MemeId :=
  MemeId.ofCInt (CInt.wrap (Int.tmod random memes.getMemeCount.val + 1))

/-- A line as it stands in the page. -/
def printLine (location : Str) (n views : CInt) : Str :=
  List.flatten [
    "Number of views: ".toList, toStr views, "   Link to meme: <a href=\"".toList, location,
    "/".toList, toStr n, "\">".toList, toStr n, "</a><br>".toList]

lemma listLine_eq (location : Str) (memes : MemeModule F) (n : CInt) :
    listLine location memes n = printLine location n (memes.getViewCount (MemeId.ofCInt n)) := by
  unfold listLine printLine
  exact Eq.refl _

/-- The lines in a page are those of the listing. -/
lemma flatMap_listLine (location : Str) (memes : MemeModule F) (shown : MemeId → Bool) :
    ((listedIds memes).filter fun n => shown (MemeId.ofCInt n)).flatMap (listLine location memes) =
      (listing memes shown).flatMap fun line => printLine location line.1 line.2 := by
  rw [listing, List.flatMap_map]
  rw [show listLine location memes = _ from funext (listLine_eq location memes)]

lemma mem_listedIds_iff {n : CInt} :
    n ∈ listedIds memes ↔ 1 ≤ n.val ∧ n.val ≤ memes.getMemeCount.val := by
  have hupper := memes.getMemeCount.upper
  simp only [listedIds, List.mem_map, List.bind_eq_flatMap, List.pure_def, List.mem_flatMap,
    List.mem_singleton, List.mem_range]
  constructor
  · rintro ⟨_, ⟨k, hk, rfl⟩, rfl⟩
    simp only [CInt.wrap]
    omega
  · rintro ⟨hone, hle⟩
    refine ⟨_, ⟨(n.val - 1).toNat, by omega, rfl⟩, CInt.ext ?_⟩
    simp only [CInt.wrap]
    omega

lemma mem_listing_iff {shown : MemeId → Bool} {line : CInt × CInt} :
    line ∈ listing memes shown ↔ line.1 ∈ listedIds memes ∧ shown (MemeId.ofCInt line.1) = true ∧
      line.2 = memes.getViewCount (MemeId.ofCInt line.1) := by
  obtain ⟨n, views⟩ := line
  simp only [listing, List.mem_map, List.mem_filter, Prod.mk.injEq]
  constructor
  · rintro ⟨n, ⟨hn, hshown⟩, rfl, rfl⟩
    exact ⟨hn, hshown, rfl⟩
  · rintro ⟨hn, hshown, rfl⟩
    exact ⟨n, ⟨hn, hshown⟩, rfl, rfl⟩

lemma mem_map_fst_listing_iff {shown : MemeId → Bool} {n : CInt} :
    n ∈ (listing memes shown).map Prod.fst ↔
      n ∈ listedIds memes ∧ shown (MemeId.ofCInt n) = true := by
  rw [List.mem_map]
  constructor
  · rintro ⟨line, hline, rfl⟩
    obtain ⟨hlisted, hshown, -⟩ := mem_listing_iff.mp hline
    exact ⟨hlisted, hshown⟩
  · rintro ⟨hlisted, hshown⟩
    exact ⟨(n, memes.getViewCount (MemeId.ofCInt n)),
      mem_listing_iff.mpr ⟨hlisted, hshown, rfl⟩, rfl⟩

end MemeHandler

/-! ### Calls -/

/-- A call of a module; the calls of the file system may fail while a meme is created. -/
inductive ListedOp where
  | create (faults : StorageFaults) (content : Str)
  | get (id : MemeId)
  | remove (id : MemeId)

/-- A module, its disk, and how often each meme was served. -/
structure Listed (F : Type) where
  w : MemeState F
  served : MemeId → Int

namespace Listed

/-- A meme is served when `get` returns it. -/
def step (float : FloatArith F) (tree : PropertyTree F) (s : Listed F) : ListedOp → Listed F
  | .create faults content => { s with w := (MemeModule.create faults content s.w).2 }
  | .get id =>
    match MemeModule.get float tree {} id s.w with
    | .ok (some _, w) => ⟨w, Function.update s.served id (s.served id + 1)⟩
    | .ok (none, w) => { s with w }
    -- an exception leaves the view counted
    | .error _ => { s with w := MemeModule.incrementViewCount {} id s.w }
  | .remove id => ⟨MemeModule.remove {} id s.w, Function.update s.served id 0⟩

/-- A new module; so far a meme was served as often as its file of views says. -/
def start (uninit : MemeModule.Uninit) (fs : FileSystem) (memes : MemeModule F) : Listed F where
  w := ⟨fs, memes⟩
  served id :=
    if MemeExists fs memes.root id then
      (MemeModule.recordedViews uninit fs memes.root id).elim 0 CInt.val
    else 0

/-- The listings show the memes there are, and how often each was served. -/
structure Shows (root : Str) (s : Listed F) : Prop where
  all : ∀ n, n ∈ (MemeHandler.listing s.w.memes fun _ => true).map Prod.fst ↔
    MemeExists s.w.fs root (MemeId.ofCInt n)
  views : ∀ line ∈ MemeHandler.listing s.w.memes fun _ => true,
    line.2.val = s.served (MemeId.ofCInt line.1)
  random : ∀ value : Nat, s.w.memes.getMemeCount ≠ 0 →
    MemeExists s.w.fs root (MemeHandler.randomId s.w.memes value)
  byViews : ∀ views n,
    n ∈ (MemeHandler.listing s.w.memes fun id =>
        decide (views < s.w.memes.getViewCount id)).map Prod.fst ↔
      MemeExists s.w.fs root (MemeId.ofCInt n) ∧ views.val < s.served (MemeId.ofCInt n)

/-- The content of a meme is there, and is a meme. -/
def Servable (tree : PropertyTree F) (fs : FileSystem) (root : Str) (id : MemeId) : Prop :=
  ∃ content, fs.openRead (root ++ '/' :: id.toStr ++ "/content".toList) = .contents content ∧
    content ≠ [] ∧ Meme.Parses tree content

/-- Nothing is created, nothing that is there is removed, and what is asked for can be served and
counted. -/
def Keeps (tree : PropertyTree F) (root : Str) (s : Listed F) : ListedOp → Prop
  | .create _ _ => False
  | .get id => MemeExists s.w.fs root id →
    Servable tree s.w.fs root id ∧ s.served id + 1 < 2 ^ 31
  | .remove id => ¬ MemeExists s.w.fs root id

/-- The memes are those from one to some number, and each has a file of views. -/
structure StartsServed (fs : FileSystem) (root : Str) : Prop where
  first : ∃ n < 2 ^ 31, ∀ id, MemeExists fs root id ↔ 1 ≤ id.toNat ∧ id.toNat ≤ n
  recorded : ∀ id, MemeExists fs root id →
    ∃ text, fs.openRead (root ++ '/' :: id.toStr ++ "/views".toList) = .contents text

/-- The memes are those up to the last id, and the module has counted what was served. -/
structure AllServed (root : Str) (s : Listed F) : Prop where
  root_eq : s.w.memes.root = root
  lt : s.w.memes.idCount.toNat < 2 ^ 31
  exists_iff : ∀ id, MemeExists s.w.fs root id ↔
    1 ≤ id.toNat ∧ id.toNat ≤ s.w.memes.idCount.toNat
  counted : ∀ id, MemeExists s.w.fs root id →
    ∃ views, s.w.memes.viewCounts.lookup id = some views ∧ views.val = s.served id
  uncounted : ∀ id, ¬ MemeExists s.w.fs root id →
    s.w.memes.viewCounts.lookup id = none ∧ s.served id = 0

/-! ### Listings -/

variable {s : Listed F} {n : CInt}

lemma getViewCount_of_lookup {views : CInt} (h : memes.viewCounts.lookup id = some views) :
    memes.getViewCount id = views := by
  rw [MemeModule.getViewCount, h]

lemma getViewCount_of_lookup_none (h : memes.viewCounts.lookup id = none) :
    (memes.getViewCount id).val = -1 := by
  rw [MemeModule.getViewCount, h]
  rfl

/-- The ids that are listed, if the last one is no negative `int`. -/
lemma mem_listedIds_iff : n ∈ MemeHandler.listedIds memes ↔ memes.idCount.toNat < 2 ^ 31 ∧
    1 ≤ (MemeId.ofCInt n).toNat ∧ (MemeId.ofCInt n).toNat ≤ memes.idCount.toNat := by
  have hid := MemeId.toNat_ofCInt n
  have hcount := memes.idCount.toNat_lt
  have hlower := n.lower
  have hupper := n.upper
  rw [MemeHandler.mem_listedIds_iff]
  simp only [MemeModule.getMemeCount, MemeId.toCInt, CInt.wrap]
  omega

/-- What is listed are ids that are listed. -/
lemma mem_all_iff : n ∈ (MemeHandler.listing memes fun _ => true).map Prod.fst ↔
    memes.idCount.toNat < 2 ^ 31 ∧
      1 ≤ (MemeId.ofCInt n).toNat ∧ (MemeId.ofCInt n).toNat ≤ memes.idCount.toNat := by
  rw [MemeHandler.mem_map_fst_listing_iff, and_iff_left rfl, mem_listedIds_iff]

/-- The line of an id. -/
lemma line_mem_all (hlt : memes.idCount.toNat < 2 ^ 31) (hone : 1 ≤ id.toNat)
    (hle : id.toNat ≤ memes.idCount.toNat) :
    (id.toCInt, memes.getViewCount id) ∈ MemeHandler.listing memes fun _ => true := by
  rw [MemeHandler.mem_listing_iff, mem_listedIds_iff, MemeId.ofCInt_toCInt]
  exact ⟨⟨hlt, hone, hle⟩, rfl, rfl⟩

/-- The views of a meme that is listed are shown. -/
lemma Shows.getViewCount (h : Shows root s) (hlt : s.w.memes.idCount.toNat < 2 ^ 31)
    (hone : 1 ≤ id.toNat) (hle : id.toNat ≤ s.w.memes.idCount.toNat) :
    (s.w.memes.getViewCount id).val = s.served id := by
  have hviews := h.views _ (line_mem_all hlt hone hle)
  rwa [MemeId.ofCInt_toCInt] at hviews

namespace AllServed

lemma shows (h : AllServed root s) : Shows root s := by
  have hexists : ∀ n, n ∈ MemeHandler.listedIds s.w.memes ↔
      MemeExists s.w.fs root (MemeId.ofCInt n) := by
    intro n
    rw [mem_listedIds_iff, h.exists_iff, and_iff_right h.lt]
  have hviews : ∀ id, MemeExists s.w.fs root id →
      (s.w.memes.getViewCount id).val = s.served id := by
    intro id hid
    obtain ⟨views, hlookup, hserved⟩ := h.counted id hid
    rw [getViewCount_of_lookup hlookup, hserved]
  refine ⟨fun n => ?_, fun line hline => ?_, fun value hcount => ?_, fun views n => ?_⟩
  · rw [MemeHandler.mem_map_fst_listing_iff, and_iff_left rfl, hexists]
  · obtain ⟨hlisted, -, hshown⟩ := MemeHandler.mem_listing_iff.mp hline
    rw [hshown]
    exact hviews _ ((hexists _).mp hlisted)
  · rw [MemeHandler.randomId, ← hexists, MemeHandler.mem_listedIds_iff]
    have hlt := h.lt
    have hvalue : s.w.memes.getMemeCount.val = s.w.memes.idCount.toNat := by
      simp only [MemeModule.getMemeCount, MemeId.toCInt, CInt.wrap]
      omega
    have hpos : 0 < s.w.memes.idCount.toNat := by
      rw [Nat.pos_iff_ne_zero]
      intro hzero
      exact hcount (CInt.ext (by rw [hvalue, hzero]; rfl))
    have hnonneg := Int.tmod_nonneg (s.w.memes.idCount.toNat : Int) (Int.natCast_nonneg value)
    have hmod := Int.tmod_lt_of_pos (value : Int) (Int.natCast_pos.mpr hpos)
    rw [hvalue]
    simp only [CInt.wrap]
    omega
  · rw [MemeHandler.mem_map_fst_listing_iff, hexists, decide_eq_true_eq]
    refine and_congr_right fun hid => ?_
    rw [← hviews _ hid]
    exact CInt.val_lt_iff.symm

/-! ### Steps -/

variable (h : AllServed root s)

include h

lemma memePath_eq (id : MemeId) : s.w.memes.memePath id = root ++ '/' :: id.toStr := by
  rw [MemeModule.memePath, h.root_eq]

/-- After a creation the new id is shown with a count of `-1`, if any id is shown. -/
lemma not_shows_create (faults : StorageFaults) (content : Str) :
    ¬ Shows root (step float tree s (.create faults content)) := by
  intro hshows
  have hmemes := @MemeModule.memes_create F faults s.w content
  have hcount : (step float tree s (.create faults content)).w.memes.idCount =
      s.w.memes.idCount + 1 := congrArg MemeModule.idCount hmemes
  have hsame : (step float tree s (.create faults content)).w.memes.viewCounts =
      s.w.memes.viewCounts := (congrArg MemeModule.viewCounts hmemes).trans rfl
  have hlt := h.lt
  have hnext : (s.w.memes.idCount + 1).toNat = s.w.memes.idCount.toNat + 1 := by
    rw [UInt32.toNat_add, UInt32.toNat_one]
    omega
  by_cases hfits : s.w.memes.idCount.toNat + 1 < 2 ^ 31
  · have hnew : ¬ MemeExists s.w.fs root (s.w.memes.idCount + 1) := by
      rw [h.exists_iff, hnext]
      omega
    obtain ⟨hlookup, hserved⟩ := h.uncounted _ hnew
    have hviews := @Shows.getViewCount _ _ (s.w.memes.idCount + 1) _ hshows
    rw [hcount, hnext] at hviews
    have hshown := hviews hfits (Nat.succ_pos _) (Nat.le_refl _)
    rw [← hsame] at hlookup
    rw [getViewCount_of_lookup_none hlookup] at hshown
    simp only [step, hserved] at hshown
    omega
  · have hone : MemeExists (step float tree s (.create faults content)).w.fs root 1 := by
      refine MemeModule.isDirectory_create content ((h.exists_iff 1).mpr ?_)
      rw [UInt32.toNat_one]
      omega
    have hlisted := (hshows.all (MemeId.toCInt 1)).mpr (by rwa [MemeId.ofCInt_toCInt])
    rw [mem_all_iff, hcount, hnext] at hlisted
    exact hfits hlisted.1

/-- What was removed is still shown. -/
lemma not_shows_remove (hid : MemeExists s.w.fs root id) :
    ¬ Shows root (step float tree s (.remove id)) := by
  intro hshows
  obtain ⟨hone, hle⟩ := (h.exists_iff id).mp hid
  have hviews := @Shows.getViewCount _ _ id _ hshows h.lt hone hle
  rw [getViewCount_of_lookup_none (AList.lookup_erase _ _)] at hviews
  simp only [step, Function.update_self] at hviews
  omega

lemma remove (hid : ¬ MemeExists s.w.fs root id) :
    AllServed root (step float tree s (.remove id)) := by
  obtain ⟨hlookup, hserved⟩ := h.uncounted id hid
  have hfs : (step float tree s (.remove id)).w.fs = s.w.fs := by
    rw [MemeExists, Bool.not_eq_true] at hid
    simp only [step, MemeModule.remove, BoostFileSystem.deleteDirectory, h.memePath_eq, hid,
      Bool.not_false, Bool.or_true, if_true]
  have hviews : ∀ id', (step float tree s (.remove id)).w.memes.viewCounts.lookup id' =
      s.w.memes.viewCounts.lookup id' := by
    intro id'
    by_cases hid' : id' = id
    · subst hid'
      exact (AList.lookup_erase _ _).trans hlookup.symm
    · exact AList.lookup_erase_ne hid'
  have hsame : (step float tree s (.remove id)).served = s.served := by
    simp only [step]
    rw [← hserved, Function.update_eq_self]
  refine ⟨h.root_eq, h.lt, fun id' => ?_, fun id' hid' => ?_, fun id' hid' => ?_⟩
  · rw [hfs]
    exact h.exists_iff id'
  · rw [hfs] at hid'
    rw [hviews, hsame]
    exact h.counted id' hid'
  · rw [hfs] at hid'
    rw [hviews, hsame]
    exact h.uncounted id' hid'

lemma get_of_not_exists (hid : ¬ MemeExists s.w.fs root id) :
    step float tree s (.get id) = s := by
  rw [MemeExists, Bool.not_eq_true] at hid
  have hget : MemeModule.get float tree {} id s.w = .ok (none, s.w) := by
    simp only [MemeModule.get, h.memePath_eq, hid, Bool.not_false, Bool.or_true, if_true]
  simp only [step, hget]

/-- A meme that is there is counted, and is served if it can be. -/
lemma get_of_exists (hid : MemeExists s.w.fs root id) :
    (Servable tree s.w.fs root id ∧ step float tree s (.get id) =
      ⟨MemeModule.incrementViewCount {} id s.w, Function.update s.served id (s.served id + 1)⟩) ∨
    ¬ Servable tree s.w.fs root id ∧ step float tree s (.get id) =
      ⟨MemeModule.incrementViewCount {} id s.w, s.served⟩ := by
  have hdir : s.w.fs.isDirectory (s.w.memes.memePath id) = true := by
    rw [h.memePath_eq]
    exact hid
  have hget := @MemeModule.get_of_isDirectory F float tree {} id s.w hdir
  rw [h.memePath_eq, show StorageFaults.openRead {} s.w.fs _ = s.w.fs.openRead _ from rfl] at hget
  rw [Servable]
  cases hopen : s.w.fs.openRead (root ++ '/' :: id.toStr ++ "/content".toList) with
  | closed | directory =>
    rw [hopen] at hget
    refine Or.inr ⟨?_, by simp only [step, hget]⟩
    rintro ⟨content, hcontent, -⟩
    cases hcontent
  | contents content =>
    rw [hopen] at hget
    have hservable : (∃ content', OpenRead.contents content = .contents content' ∧ content' ≠ [] ∧
        Meme.Parses tree content') ↔ content ≠ [] ∧ Meme.Parses tree content := by
      constructor
      · rintro ⟨content', hcontent, hmeme⟩
        cases hcontent
        exact hmeme
      · exact fun hmeme => ⟨content, rfl, hmeme⟩
    rw [hservable]
    cases content with
    | nil => exact Or.inr ⟨fun hmeme => hmeme.1 rfl, by simp only [step, hget]⟩
    | cons c cs =>
      cases hmake : Meme.make tree (c :: cs)
          ((MemeModule.incrementViewCount {} id s.w).memes.getViewCount id)
          ((MemeModule.incrementViewCount {} id s.w).memes.getRating float id) with
      | error e =>
        refine Or.inr ⟨fun hmeme => ?_, ?_⟩
        · obtain ⟨made, hmade⟩ := succeeds_meme_make_iff.mpr hmeme.2
          rw [hmake] at hmade
          cases hmade
        · simp only [hmake] at hget
          simp only [step, hget]
          rfl
      | ok made =>
        refine Or.inl ⟨⟨List.cons_ne_nil _ _, succeeds_meme_make_iff.mp ⟨made, hmake⟩⟩, ?_⟩
        simp only [hmake] at hget
        simp only [step, hget]
        rfl

/-- The view of a meme is counted right, if it was served and the count does not overflow. -/
lemma get_of_servable (hid : MemeExists s.w.fs root id) (hlt : s.served id + 1 < 2 ^ 31) :
    AllServed root
      ⟨MemeModule.incrementViewCount {} id s.w, Function.update s.served id (s.served id + 1)⟩ := by
  obtain ⟨views, hlookup, hserved⟩ := h.counted id hid
  rw [MemeModule.incrementViewCount_eq, hlookup, Option.elim_some]
  have hexists : ∀ id' content, MemeExists (BoostFileSystem.writeFile {} s.w.fs
      (s.w.memes.memePath id ++ "/views".toList) content).2 root id' ↔
        MemeExists s.w.fs root id' := by
    intro id' content
    rw [MemeExists, BoostFileSystem.isDirectory_writeFile, MemeExists]
  refine ⟨h.root_eq, h.lt, fun id' => ?_, fun id' hid' => ?_, fun id' hid' => ?_⟩
  · rw [hexists]
    exact h.exists_iff id'
  · rw [hexists] at hid'
    by_cases hsame : id' = id
    · subst hsame
      have hnew : views.succ.val = Function.update s.served id' (s.served id' + 1) id' := by
        rw [Function.update_self, ← hserved]
        exact CInt.val_succ_of_lt (by omega)
      exact ⟨views.succ, AList.lookup_insert _, hnew⟩
    · obtain ⟨views', hlookup', hserved'⟩ := h.counted id' hid'
      exact ⟨views', (AList.lookup_insert_ne hsame).trans hlookup',
        hserved'.trans (Function.update_of_ne hsame _ _).symm⟩
  · rw [hexists] at hid'
    have hsame : id' ≠ id := by
      rintro rfl
      exact hid' hid
    obtain ⟨hlookup', hserved'⟩ := h.uncounted id' hid'
    exact ⟨(AList.lookup_insert_ne hsame).trans hlookup',
      (Function.update_of_ne hsame _ _).trans hserved'⟩

/-- The count that is shown is one more than before, or wraps around. -/
lemma not_shows_get (hid : MemeExists s.w.fs root id) {served : MemeId → Int}
    (hserved : served id = s.served id ∨ served id = s.served id + 1 ∧ ¬ s.served id + 1 < 2 ^ 31) :
    ¬ Shows root ⟨MemeModule.incrementViewCount {} id s.w, served⟩ := by
  intro hshows
  obtain ⟨hone, hle⟩ := (h.exists_iff id).mp hid
  obtain ⟨views, hlookup, hviews⟩ := h.counted id hid
  rw [MemeModule.incrementViewCount_eq, hlookup, Option.elim_some] at hshows
  have hshown := @Shows.getViewCount _ _ id _ hshows h.lt hone hle
  rw [getViewCount_of_lookup (AList.lookup_insert _)] at hshown
  have hlower := views.lower
  have hupper := views.upper
  simp only [CInt.succ, CInt.wrap] at hshown
  omega

/-- A step keeps the listings right, or makes them wrong at once. -/
lemma step_cases (op : ListedOp) :
    Keeps tree root s op ∧ AllServed root (step float tree s op) ∨
      ¬ Keeps tree root s op ∧ ¬ Shows root (step float tree s op) := by
  cases op with
  | create faults content => exact Or.inr ⟨id, h.not_shows_create faults content⟩
  | remove id =>
    by_cases hid : MemeExists s.w.fs root id
    · exact Or.inr ⟨fun hkeeps => hkeeps hid, h.not_shows_remove hid⟩
    · exact Or.inl ⟨hid, h.remove hid⟩
  | get id =>
    by_cases hid : MemeExists s.w.fs root id
    · have hkeeps : Keeps tree root s (.get id) ↔
          Servable tree s.w.fs root id ∧ s.served id + 1 < 2 ^ 31 := forall_prop_of_true hid
      rw [hkeeps]
      rcases h.get_of_exists hid with ⟨hservable, hstep⟩ | ⟨hservable, hstep⟩
      · rw [hstep, and_iff_right hservable]
        by_cases hlt : s.served id + 1 < 2 ^ 31
        · exact Or.inl ⟨hlt, h.get_of_servable hid hlt⟩
        · exact Or.inr ⟨hlt, h.not_shows_get hid (Or.inr ⟨Function.update_self .., hlt⟩)⟩
      · rw [hstep]
        exact Or.inr ⟨fun hkeeps => hservable hkeeps.1, h.not_shows_get hid (Or.inl rfl)⟩
    · rw [h.get_of_not_exists hid]
      exact Or.inl ⟨fun hexists => absurd hexists hid, h⟩

end AllServed

/-! ### Runs -/

section

variable {fs : FileSystem} {uninit : MemeModule.Uninit} (hroot : root.getLast? ≠ some '/')
  (hdir : fs.isDirectory root = true)
  (hnames : ∀ name ∈ fs.entries root, fs.isDirectory (root ++ '/' :: name) = true →
    ∃ id : MemeId, name = id.toStr)
  (hload : MemeModule.load float {} uninit fs root = .ok memes)

include hroot hdir hnames hload

lemma allServed_start (hstart : StartsServed fs root) : AllServed root (start uninit fs memes) := by
  obtain ⟨hroot', hle, hattained, hlookup, -⟩ := MemeModule.load_eq_ok hroot hnames hdir hload
  obtain ⟨⟨n, hn, hfirst⟩, hrecorded⟩ := hstart
  have hcount : memes.idCount.toNat = n := by
    apply Nat.le_antisymm
    · rcases hattained with hzero | hlast
      · rw [hzero]
        exact Nat.zero_le _
      · exact ((hfirst _).mp hlast).2
    · by_cases hzero : n = 0
      · rw [hzero]
        exact Nat.zero_le _
      · have hnat : (UInt32.ofNat n).toNat = n := by
          rw [UInt32.toNat_ofNat']
          omega
        have hlast := hle (UInt32.ofNat n) ((hfirst _).mpr (by rw [hnat]; omega))
        rwa [UInt32.le_iff_toNat_le, hnat] at hlast
  refine ⟨hroot', ?_, fun id => ?_, fun id hid => ?_, fun id hid => ?_⟩
  · rw [← hcount] at hn
    exact hn
  · rw [show (start uninit fs memes).w.memes.idCount.toNat = n from hcount]
    exact hfirst id
  · change MemeExists fs root id at hid
    obtain ⟨text, htext⟩ := hrecorded id hid
    refine ⟨extractInt (uninit.viewCount (root ++ '/' :: id.toStr)) text, ?_, ?_⟩
    · refine (hlookup id).trans ?_
      rw [if_pos hid, ← MemeModule.recordedViews_eq, MemeModule.recordedViews, htext]
    · rw [start, hroot']
      simp only [MemeModule.recordedViews, htext]
      rw [if_pos hid]
      rfl
  · refine ⟨(hlookup id).trans (if_neg hid), ?_⟩
    rw [start, hroot']
    exact if_neg hid

lemma startsServed_of_shows (hshows : Shows root (start uninit fs memes)) :
    StartsServed fs root := by
  obtain ⟨hroot', -, -, hlookup, -⟩ := MemeModule.load_eq_ok hroot hnames hdir hload
  have hall : ∀ id, MemeExists fs root id ↔
      memes.idCount.toNat < 2 ^ 31 ∧ 1 ≤ id.toNat ∧ id.toNat ≤ memes.idCount.toNat := by
    intro id
    have hlisted := hshows.all id.toCInt
    rw [mem_all_iff, MemeId.ofCInt_toCInt] at hlisted
    exact hlisted.symm
  refine ⟨?_, fun id hid => ?_⟩
  · by_cases hlt : memes.idCount.toNat < 2 ^ 31
    · exact ⟨_, hlt, fun id => (hall id).trans (and_iff_right hlt)⟩
    · refine ⟨0, by decide, fun id => (hall id).trans (iff_of_false (fun h => hlt h.1) ?_)⟩
      omega
  · obtain ⟨hlt, hone, hle⟩ := (hall id).mp hid
    have hviews := @Shows.getViewCount _ _ id _ hshows hlt hone hle
    have hserved : (start uninit fs memes).served id =
        (MemeModule.recordedViews uninit fs root id).elim 0 CInt.val := by
      rw [start, hroot']
      exact if_pos hid
    have hentry : (start uninit fs memes).w.memes.viewCounts.lookup id =
        MemeModule.recordedViews uninit fs root id := by
      rw [MemeModule.recordedViews_eq]
      exact (hlookup id).trans (if_pos hid)
    cases hopen : fs.openRead (root ++ '/' :: id.toStr ++ "/views".toList) with
    | contents text => exact ⟨text, rfl⟩
    | closed | directory =>
      have hnone : MemeModule.recordedViews uninit fs root id = none := by
        rw [MemeModule.recordedViews, hopen]
      rw [hnone] at hentry hserved
      rw [hserved, getViewCount_of_lookup_none hentry] at hviews
      cases hviews

end

/-- The listings show the memes there are through a whole run exactly if these are at first those
from one to some number, each with its views on the disk, and every call leaves them as they are and
counts what it serves. -/
theorem run_shows_iff {F : Type} (float : FloatArith F) (tree : PropertyTree F)
    (uninit : MemeModule.Uninit) (fs : FileSystem) (root : Str) (memes : MemeModule F)
    (ops : List ListedOp) (hroot : root.getLast? ≠ some '/') (hdir : fs.isDirectory root = true)
    (hnames : ∀ name ∈ fs.entries root, fs.isDirectory (root ++ '/' :: name) = true →
      ∃ id : MemeId, name = id.toStr)
    (hload : MemeModule.load float {} uninit fs root = .ok memes) :
    (∀ ops₁, ops₁ <+: ops → Shows root (ops₁.foldl (step float tree) (start uninit fs memes))) ↔
      StartsServed fs root ∧ ∀ ops₁ op, ops₁ ++ [op] <+: ops →
        Keeps tree root (ops₁.foldl (step float tree) (start uninit fs memes)) op := by
  have hiff := @forall_prefix_foldl_iff (Listed F) ListedOp (step float tree) (AllServed root)
    (Shows root) (Keeps tree root) AllServed.shows (fun op h => h.step_cases op) ops
    (start uninit fs memes)
  constructor
  · intro hshows
    have hstart := startsServed_of_shows hroot hdir hnames hload (hshows [] List.nil_prefix)
    exact ⟨hstart, (hiff (allServed_start hroot hdir hnames hload hstart)).mp hshows⟩
  · rintro ⟨hstart, hkeeps⟩
    exact (hiff (allServed_start hroot hdir hnames hload hstart)).mpr hkeeps

/-- A disk with one meme that was served once. -/
def servedDisk : FileSystem :=
  (MemeModule.incrementViewCount {} 1
    (MemeModule.create {} sampleMeme ⟨sampleDisk, (⟨['m'], 0, ∅, ∅⟩ : MemeModule CInt)⟩).2).fs

theorem run_shows_iff_servedDisk :
    ∃ memes, MemeModule.load wholeFloat {} ⟨fun _ => 0, fun _ => 0⟩ servedDisk ['m'] = .ok memes ∧
      ((∀ ops₁, ops₁ <+: [.get 1, .remove 2] → Shows ['m']
          (ops₁.foldl (step wholeFloat sampleTree)
            (start ⟨fun _ => 0, fun _ => 0⟩ servedDisk memes))) ↔
        StartsServed servedDisk ['m'] ∧ ∀ ops₁ op, ops₁ ++ [op] <+: [.get 1, .remove 2] →
          Keeps sampleTree ['m'] (ops₁.foldl (step wholeFloat sampleTree)
            (start ⟨fun _ => 0, fun _ => 0⟩ servedDisk memes)) op) := by
  have hnames : ∀ name ∈ servedDisk.entries ['m'],
      servedDisk.isDirectory (['m'] ++ '/' :: name) = true → ∃ id : MemeId, name = id.toStr := by
    intro name hname _
    rw [show servedDisk.entries ['m'] = [['1']] from rfl, List.mem_singleton] at hname
    exact ⟨1, hname⟩
  exact ⟨_, rfl, run_shows_iff _ _ _ _ _ _ _ (by decide) rfl hnames rfl⟩

/-- A new meme is shown with `-1` views. -/
theorem run_not_shows :
    ¬ ∀ memes, MemeModule.load wholeFloat {} ⟨fun _ => 0, fun _ => 0⟩ sampleDisk ['m'] = .ok memes →
      Shows ['m'] (step wholeFloat sampleTree (start ⟨fun _ => 0, fun _ => 0⟩ sampleDisk memes)
        (.create {} sampleMeme)) := by
  intro h
  have hshows := h _ rfl
  have hviews := @Shows.getViewCount _ _ 1 _ hshows (by decide) (by decide) (by decide)
  cases hviews

end Listed

end SocialNetworkApp
