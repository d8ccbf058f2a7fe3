import SocialNetworkApp.Core.Run
import SocialNetworkApp.Meme.Module

/-!
# Calls on one module at the same time

A call goes on step by step, and the steps of different calls come in any order. What is done under
a mutex is one step. In every step any call of the file system may fail.
-/

namespace SocialNetworkApp

open SocialNetworkApp.Core

/-- A call. The name of a comment's file is drawn when the call is made. -/
inductive MemeCall where
  | create (content : Str)
  | get (id : MemeId)
  | addComment (uuid : FileName) (id : MemeId) (comment : Comment)
  | addRating (id : MemeId) (rating : CInt)

/-- What a call does next, or what it has returned. -/
inductive CallState (F : Type) where
  | generateId (content : Str)
  | createDirectory (content : Str) (newId : MemeId)
  | writeContent (content : Str) (newId : MemeId)
  | created (content : Str) (result : Option MemeId)
  | findMeme (id : MemeId)
  | findDirectory (id : MemeId)
  | incrementViewCount (id : MemeId)
  | getContent (id : MemeId)
  | getViewCount (id : MemeId) (content : Str)
  | getRating (id : MemeId) (content : Str) (views : CInt)
  | got (result : Except Exception (Option (Meme F)))
  | findCommented (uuid : FileName) (id : MemeId) (comment : Comment)
  | findComments (uuid : FileName) (id : MemeId) (comment : Comment)
  | createComments (uuid : FileName) (id : MemeId) (comment : Comment)
  | writeComment (uuid : FileName) (id : MemeId) (comment : Comment)
  | addRating (id : MemeId) (rating : CInt)
  | returned

/-- Calls that run at the same time on one module, named by `I`. -/
structure ConcurrentCalls (I F : Type) where
  world : MemeState F
  call : I → CallState F

namespace MemeCall

def start {F : Type} : MemeCall → CallState F
  | create content => .generateId content
  | get id => .findMeme id
  | addComment uuid id comment => .findCommented uuid id comment
  | addRating id rating => .addRating id rating

end MemeCall

namespace CallState

variable {F : Type} (float : FloatArith F) (tree : PropertyTree F) (faults : StorageFaults)

/-- The next step of a call. -/
def advance (c : CallState F) (w : MemeState F) : CallState F × MemeState F :=
  match c with
  | generateId content =>
    let memes := { w.memes with idCount := w.memes.idCount + 1 }
    (createDirectory content memes.idCount, ⟨w.fs, memes⟩)
  | createDirectory content newId =>
    match BoostFileSystem.createDirectory faults w.fs (w.memes.memePath newId) with
    | (.success, fs) => (writeContent content newId, ⟨fs, w.memes⟩)
    | (_, fs) => (created content none, ⟨fs, w.memes⟩)
  | writeContent content newId =>
    match BoostFileSystem.writeFile faults w.fs
      (w.memes.memePath newId ++ "/content".toList) content with
    | (.success, fs) => (created content (some newId), ⟨fs, w.memes⟩)
    | (_, fs) => (created content none, ⟨fs, w.memes⟩)
  | findMeme id =>
    if !BoostFileSystem.exist w.fs (w.memes.memePath id) then (got (.ok none), w)
    else (findDirectory id, w)
  | findDirectory id =>
    if !w.fs.isDirectory (w.memes.memePath id) then (got (.ok none), w)
    else (incrementViewCount id, w)
  | incrementViewCount id => (getContent id, MemeModule.incrementViewCount faults id w)
  | getContent id =>
    match MemeModule.getContent faults id w with
    | .error e => (got (.error e), w)
    | .ok [] => (got (.ok none), w)
    | .ok content => (getViewCount id content, w)
  | getViewCount id content => (getRating id content (w.memes.getViewCount id), w)
  | getRating id content views =>
    (got ((Meme.make tree content views (w.memes.getRating float id)).map some), w)
  | findCommented uuid id comment =>
    if !BoostFileSystem.exist w.fs (w.memes.memePath id) then (returned, w)
    else (findComments uuid id comment, w)
  | findComments uuid id comment =>
    if !BoostFileSystem.exist w.fs (w.memes.memePath id ++ "/comments".toList) then
      (createComments uuid id comment, w)
    else (writeComment uuid id comment, w)
  | createComments uuid id comment =>
    let commentPath := w.memes.memePath id ++ "/comments".toList
    (writeComment uuid id comment,
      { w with fs := (BoostFileSystem.createDirectory faults w.fs commentPath).2 })
  | writeComment uuid id comment =>
    let commentPath := w.memes.memePath id ++ "/comments".toList
    (returned, { w with fs := (BoostFileSystem.writeFile faults w.fs
      (commentPath ++ '/' :: uuid.val) comment.content).2 })
  | addRating id rating => (returned, MemeModule.addRating float faults id rating w)
  | created content result => (created content result, w)
  | got result => (got result, w)
  | returned => (returned, w)

/-- The name of the file the next step writes. -/
def writes (memes : MemeModule F) : CallState F → Option Str
  | writeContent _ newId => some (memes.memePath newId ++ "/content".toList)
  | incrementViewCount id => some (memes.memePath id ++ "/views".toList)
  | writeComment uuid id _ =>
    some (memes.memePath id ++ "/comments".toList ++ '/' :: uuid.val)
  | addRating id _ => some (memes.memePath id ++ "/ratings".toList)
  | _ => none

/-- The meme whose directory the call has created. -/
def made : CallState F → Option MemeId
  | writeContent _ newId => some newId
  | created _ result => result
  | _ => none

end CallState

namespace ConcurrentCalls

variable {I F : Type} [DecidableEq I] (float : FloatArith F) (tree : PropertyTree F)

def start (w : MemeState F) (calls : I → MemeCall) : ConcurrentCalls I F :=
  ⟨w, fun i => (calls i).start⟩

/-- A step of one of the calls. -/
def step (s : ConcurrentCalls I F) (e : I × StorageFaults) : ConcurrentCalls I F :=
  let next := CallState.advance float tree e.2 (s.call e.1) s.world
  ⟨next.2, Function.update s.call e.1 next.1⟩

end ConcurrentCalls

namespace CallState

/-! ### A call alone -/

section

variable {F : Type} (float : FloatArith F) (tree : PropertyTree F) (faults : StorageFaults)

/-- The next step of a call between whose steps no other call comes. -/
def alone (p : CallState F × MemeState F) : CallState F × MemeState F :=
  advance float tree faults p.1 p.2

variable (w : MemeState F)

lemma alone_create (content : Str) :
    (alone float tree faults)^[3] (generateId content, w) =
      (created content (MemeModule.create faults content w).1,
        (MemeModule.create faults content w).2) := by
  simp only [Function.iterate_succ_apply, Function.iterate_zero_apply, alone, advance,
    MemeModule.create, MemeModule.memePath]
  rcases BoostFileSystem.createDirectory faults w.fs
    (w.memes.root ++ '/' :: (w.memes.idCount + 1).toStr) with ⟨status, fs⟩
  cases status with
  | success =>
    simp only
    rcases BoostFileSystem.writeFile faults fs
      (w.memes.root ++ '/' :: (w.memes.idCount + 1).toStr ++ "/content".toList) content
      with ⟨status, fs'⟩
    cases status <;> rfl
  | _ => rfl

lemma alone_get (id : MemeId) :
    ∃ result w', (alone float tree faults)^[6] (findMeme id, w) = (got result, w') ∧
      MemeModule.get float tree faults id w = result.map fun meme => (meme, w') := by
  cases hexist : BoostFileSystem.exist w.fs (w.memes.memePath id) with
  | false =>
    refine ⟨.ok none, w, ?_, ?_⟩
    · simp only [Function.iterate_succ_apply, Function.iterate_zero_apply, alone, advance, hexist,
        Bool.not_false, if_true]
    · simp only [MemeModule.get, hexist, Bool.not_false, Bool.true_or, if_true]
      rfl
  | true =>
    cases hdir : w.fs.isDirectory (w.memes.memePath id) with
    | false =>
      refine ⟨.ok none, w, ?_, ?_⟩
      · simp only [Function.iterate_succ_apply, Function.iterate_zero_apply, alone, advance, hexist,
          hdir, Bool.not_false, Bool.not_true, Bool.false_eq_true, if_false, if_true]
      · simp only [MemeModule.get, hdir, Bool.not_false, Bool.or_true, if_true]
        rfl
    | true =>
      have hstart : (alone float tree faults)^[6] (findMeme id, w) = (alone float tree faults)^[3]
          (getContent id, MemeModule.incrementViewCount faults id w) := by
        simp only [Function.iterate_succ_apply, Function.iterate_zero_apply, alone, advance, hexist,
          hdir, Bool.not_true, Bool.false_eq_true, if_false]
      rw [hstart]
      simp only [MemeModule.get, hexist, hdir, Bool.not_true, Bool.or_self, Bool.false_eq_true,
        if_false]
      generalize MemeModule.incrementViewCount faults id w = w'
      simp only [Function.iterate_succ_apply, Function.iterate_zero_apply]
      cases hcontent : MemeModule.getContent faults id w' with
      | error e =>
        refine ⟨.error e, w', ?_, rfl⟩
        simp only [alone, advance, hcontent]
      | ok content =>
        cases content with
        | nil =>
          refine ⟨.ok none, w', ?_, rfl⟩
          simp only [alone, advance, hcontent]
        | cons c cs =>
          have hmap : ∀ made : Except Exception (Meme F), (made.map fun meme => (some meme, w')) =
              (made.map some).map fun meme => (meme, w') := by
            intro made
            cases made <;> rfl
          refine ⟨_, w', ?_, hmap _⟩
          simp only [alone, advance, hcontent]

lemma alone_addComment (uuid : FileName) (id : MemeId) (comment : Comment) :
    (alone float tree faults)^[4] (findCommented uuid id comment, w) =
      (returned, MemeModule.addComment faults uuid.val id comment w) := by
  simp only [Function.iterate_succ_apply, Function.iterate_zero_apply, MemeModule.addComment]
  cases hexist : BoostFileSystem.exist w.fs (w.memes.memePath id) with
  | false => simp only [alone, advance, hexist, Bool.not_false, if_true]
  | true =>
    cases hcomments : BoostFileSystem.exist w.fs (w.memes.memePath id ++ "/comments".toList) with
    | false =>
      simp only [alone, advance, hexist, hcomments, Bool.not_true, Bool.not_false,
        Bool.false_eq_true, if_false, if_true]
    | true =>
      simp only [alone, advance, hexist, hcomments, Bool.not_true, Bool.false_eq_true, if_false]

end

variable {F : Type} {float : FloatArith F} {tree : PropertyTree F} {faults : StorageFaults}
  {c c' : CallState F} {w w' : MemeState F} {content : Str} {id : MemeId}

/-! ### Steps -/

/-- What one step does to the disk. -/
inductive Effect (c : CallState F) (w : MemeState F) (fs : FileSystem) : Prop
  | none (h : fs = w.fs)
  | directory {p : List Str} (hp : ¬ w.fs.tree.IsFile p) (h : w.fs.Sets p (some .dir) fs)
  | file {name text : Str} {p : List Str} (hwrites : c.writes w.memes = some name)
      (hname : w.fs.resolve name = some p) (hp : ¬ w.fs.tree.IsDir p)
      (h : w.fs.Sets p (some (.file text)) fs)

/-- A directory is created, or the disk stays as it is. -/
lemma Effect.of_createDirectory {path : Str} {status : StatusF} {fs : FileSystem}
    (h : BoostFileSystem.createDirectory faults w.fs path = (status, fs)) : Effect c w fs := by
  rcases BoostFileSystem.createDirectory_cases h with ⟨-, -, hcreate⟩ | ⟨-, rfl⟩
  · obtain ⟨p, -, hp, hsets⟩ := FileSystem.createDirectory_eq_some hcreate
    exact .directory hp hsets
  · exact .none rfl

lemma Effect.of_writeFile {path text : Str} {status : StatusF} {fs : FileSystem}
    (hwrites : c.writes w.memes = some path)
    (h : BoostFileSystem.writeFile faults w.fs path text = (status, fs)) : Effect c w fs := by
  rcases BoostFileSystem.writeFile_cases h with ⟨-, hwrite⟩ | ⟨-, rfl⟩
  · obtain ⟨p, hname, hp, hsets⟩ := FileSystem.writeFile_eq_some hwrite
    exact .file hwrites hname hp hsets
  · exact .none rfl

/-- What a step does to the root, to the disk, and to the meme the call has made. -/
structure Advances (c : CallState F) (w : MemeState F) (c' : CallState F) (w' : MemeState F) :
    Prop where
  root_eq : w'.memes.root = w.memes.root
  effect : Effect c w w'.fs
  made : ∀ {id : MemeId}, c'.made = some id → c.made = some id ∨
    BoostFileSystem.exist w.fs (w.memes.memePath id) = false ∧
      BoostFileSystem.exist w'.fs (w.memes.memePath id) = true
  created : ∀ {content : Str} {id : MemeId}, c' = created content (some id) → c' = c ∧ w' = w ∨
    c = writeContent content id ∧
      w'.fs.openRead (w.memes.memePath id ++ "/content".toList) = .contents content

namespace Advances

lemma of_made_eq_none (hroot : w'.memes.root = w.memes.root) (heffect : Effect c w w'.fs)
    (hmade : c'.made = none) : Advances c w c' w' where
  root_eq := hroot
  effect := heffect
  made h := by
    rw [hmade] at h
    cases h
  created h := by
    rw [h] at hmade
    cases hmade

/-- Calls that only look at something, and calls that have returned. -/
lemma idle (hmade : c'.made = none) : Advances c w c' w := .of_made_eq_none rfl (.none rfl) hmade

lemma refl (c : CallState F) (w : MemeState F) : Advances c w c w where
  root_eq := rfl
  effect := .none rfl
  made h := Or.inl h
  created _ := Or.inl ⟨rfl, rfl⟩

lemma createDirectory (content : Str) (newId : MemeId) :
    Advances (createDirectory content newId) w
      (advance float tree faults (.createDirectory content newId) w).1
      (advance float tree faults (.createDirectory content newId) w).2 := by
  rw [advance]
  rcases hcreate : BoostFileSystem.createDirectory faults w.fs (w.memes.memePath newId)
    with ⟨status, fs⟩
  have heffect : Effect (.createDirectory content newId) w fs := .of_createDirectory hcreate
  rcases BoostFileSystem.createDirectory_cases hcreate with
    ⟨rfl, hnew, hfs⟩ | ⟨hstatus, -⟩
  · refine ⟨rfl, heffect, fun hid => Or.inr ?_, fun h => by cases h⟩
    obtain rfl := Option.some.inj hid
    obtain ⟨p, hname, -, hsets⟩ := FileSystem.createDirectory_eq_some hfs
    refine ⟨hnew, ?_⟩
    rw [BoostFileSystem.exist, FileSystem.pathExists_of_resolve
      (hsets.resolve_mono (fun _ => rfl) hname), hsets.node_self]
    rfl
  · cases status with
    | success => exact absurd rfl hstatus
    | _ => exact .of_made_eq_none rfl heffect rfl

lemma writeContent (content : Str) (newId : MemeId) :
    Advances (writeContent content newId) w
      (advance float tree faults (.writeContent content newId) w).1
      (advance float tree faults (.writeContent content newId) w).2 := by
  rw [advance]
  rcases hwrite : BoostFileSystem.writeFile faults w.fs
    (w.memes.memePath newId ++ "/content".toList) content with ⟨status, fs⟩
  have heffect : Effect (.writeContent content newId) w fs := .of_writeFile rfl hwrite
  rcases BoostFileSystem.writeFile_cases hwrite with ⟨rfl, hfs⟩ | ⟨hstatus, -⟩
  · refine ⟨rfl, heffect, fun hid => Or.inl hid, fun h => Or.inr ?_⟩
    obtain ⟨rfl, hid⟩ := CallState.created.inj h
    obtain rfl := Option.some.inj hid
    obtain ⟨p, hname, hp, hsets⟩ := FileSystem.writeFile_eq_some hfs
    exact ⟨rfl, FileSystem.openRead_of_node
      (hsets.resolve_mono (fun hdir => absurd hdir hp) hname) hsets.node_self⟩
  · cases status with
    | success => exact absurd rfl hstatus
    | _ => exact .of_made_eq_none rfl heffect rfl

end Advances

/-- Every step is of this kind. -/
lemma advances (c : CallState F) (w : MemeState F) :
    Advances c w (advance float tree faults c w).1 (advance float tree faults c w).2 := by
  cases c with
  | generateId content => exact .of_made_eq_none rfl (.none rfl) rfl
  | createDirectory content newId => exact .createDirectory content newId
  | writeContent content newId => exact .writeContent content newId
  | findMeme id =>
    rw [advance]
    split_ifs <;> exact .idle rfl
  | findDirectory id =>
    rw [advance]
    split_ifs <;> exact .idle rfl
  | incrementViewCount id => exact .of_made_eq_none rfl (.of_writeFile rfl rfl) rfl
  | getContent id =>
    rw [advance]
    rcases MemeModule.getContent faults id w with e | _ | ⟨c, cs⟩ <;> exact .idle rfl
  | getViewCount id content => exact .idle rfl
  | getRating id content views => exact .idle rfl
  | findCommented uuid id comment =>
    rw [advance]
    split_ifs <;> exact .idle rfl
  | findComments uuid id comment =>
    rw [advance]
    split_ifs <;> exact .idle rfl
  | createComments uuid id comment => exact .of_made_eq_none rfl (.of_createDirectory rfl) rfl
  | writeComment uuid id comment => exact .of_made_eq_none rfl (.of_writeFile rfl rfl) rfl
  | addRating id rating => exact .of_made_eq_none rfl (.of_writeFile rfl rfl) rfl
  | created content result => exact .refl _ _
  | got result => exact .idle rfl
  | returned => exact .idle rfl

/-! ### Names of files -/

/-- No step writes the content of a meme that its call has not made. -/
lemma resolve_ne_of_writes {name : Str} (hwrites : c.writes w.memes = some name)
    (hmade : c.made ≠ some id) {q : List Str}
    (hq : w.fs.resolve (w.memes.memePath id ++ "/content".toList) = some q) :
    w.fs.resolve name ≠ some q := by
  intro hname
  have hplain : PlainName "content".toList := by decide
  cases c with
  | writeContent content newId =>
    obtain rfl := Option.some.inj hwrites
    exact hmade (congrArg some (eq_of_resolve_memeFile hplain hplain hname hq).1)
  | incrementViewCount id' =>
    obtain rfl := Option.some.inj hwrites
    have hviews : PlainName "views".toList := by decide
    exact absurd (eq_of_resolve_memeFile hplain hviews hq hname).2 (by decide)
  | addRating id' rating =>
    obtain rfl := Option.some.inj hwrites
    have hratings : PlainName "ratings".toList := by decide
    exact absurd (eq_of_resolve_memeFile hplain hratings hq hname).2 (by decide)
  | writeComment uuid id' comment =>
    obtain rfl := Option.some.inj hwrites
    exact resolve_comment_ne uuid hplain hq hname
  | _ => cases hwrites

/-- A step leaves the content of a meme alone that its call has not made. -/
lemma openRead_of_effect {fs : FileSystem} (h : Effect c w fs) (hmade : c.made ≠ some id)
    (hcontent : w.fs.openRead (w.memes.memePath id ++ "/content".toList) = .contents content) :
    fs.openRead (w.memes.memePath id ++ "/content".toList) = .contents content := by
  obtain ⟨q, hq, hfile⟩ := FileSystem.resolve_of_openRead hcontent
  cases h with
  | none h => rw [h, hcontent]
  | directory hp hsets =>
    rw [hsets.openRead_ne (fun _ => rfl) hq, hcontent]
    rintro rfl
    exact hp ⟨content, hfile⟩
  | file hwrites hname hp hsets =>
    rw [hsets.openRead_ne (fun hdir => absurd hdir hp) hq, hcontent]
    rintro rfl
    exact resolve_ne_of_writes hwrites hmade hq hname

lemma exist_of_effect {fs : FileSystem} (h : Effect c w fs) {path : Str}
    (hexist : BoostFileSystem.exist w.fs path = true) : BoostFileSystem.exist fs path = true := by
  cases h with
  | none h => rw [h, hexist]
  | directory hp hsets => exact hsets.pathExists_mono (fun _ => rfl) hexist
  | file hwrites hname hp hsets => exact hsets.pathExists_mono (fun hdir => absurd hdir hp) hexist

end CallState

namespace ConcurrentCalls

variable {I F : Type} [DecidableEq I] {float : FloatArith F} {tree : PropertyTree F}
  {s : ConcurrentCalls I F}

/-! ### Calls in any order -/

/-- The file with the content of a meme. -/
def contentPath (s : ConcurrentCalls I F) (id : MemeId) : Str :=
  s.world.memes.memePath id ++ "/content".toList

/-- The directory of a meme has been created by one call only, and what a call has written to it is
still there. -/
structure Separate (s : ConcurrentCalls I F) : Prop where
  exist : ∀ {i : I} {id : MemeId}, (s.call i).made = some id →
    BoostFileSystem.exist s.world.fs (s.world.memes.memePath id) = true
  unique : ∀ {i j : I} {id : MemeId}, (s.call i).made = some id → (s.call j).made = some id → i = j
  kept : ∀ {i : I} {content : Str} {id : MemeId}, s.call i = .created content (some id) →
    s.world.fs.openRead (s.contentPath id) = .contents content

omit [DecidableEq I] in
lemma separate_start (w : MemeState F) (calls : I → MemeCall) : (start w calls).Separate := by
  have hmade : ∀ i, ((start w calls).call i).made = none := by
    intro i
    simp only [start]
    cases calls i <;> rfl
  constructor
  · intro i id h
    rw [hmade] at h
    cases h
  · intro i j id h
    rw [hmade] at h
    cases h
  · intro i content id h
    have hnone := hmade i
    rw [h] at hnone
    cases hnone

lemma Separate.step (h : s.Separate) (e : I × StorageFaults) :
    (step float tree s e).Separate := by
  obtain ⟨i, faults⟩ := e
  have hstep := @CallState.advances F float tree faults (s.call i) s.world
  have hself : (ConcurrentCalls.step float tree s (i, faults)).call i =
      (CallState.advance float tree faults (s.call i) s.world).1 := Function.update_self ..
  have hworld : (ConcurrentCalls.step float tree s (i, faults)).world =
      (CallState.advance float tree faults (s.call i) s.world).2 := rfl
  have hother : ∀ j, j ≠ i → (ConcurrentCalls.step float tree s (i, faults)).call j = s.call j :=
    fun j hj => Function.update_of_ne hj ..
  rw [← hself, ← hworld] at hstep
  generalize ConcurrentCalls.step float tree s (i, faults) = s' at hstep hother ⊢
  have hpath : ∀ id, s'.world.memes.memePath id = s.world.memes.memePath id := by
    intro id
    rw [MemeModule.memePath, MemeModule.memePath, hstep.root_eq]
  -- a directory that is there is not created again
  have hnew : ∀ {j id}, j ≠ i → (s.call j).made = some id → (s'.call i).made ≠ some id := by
    intro j id hj hmade hmade'
    rcases hstep.made hmade' with hold | ⟨hnot, -⟩
    · exact hj (h.unique hmade hold)
    · rw [h.exist hmade] at hnot
      cases hnot
  constructor
  · intro j id hmade
    rw [hpath]
    by_cases hj : j = i
    · subst hj
      rcases hstep.made hmade with hold | ⟨-, hexist⟩
      · exact CallState.exist_of_effect hstep.effect (h.exist hold)
      · exact hexist
    · rw [hother j hj] at hmade
      exact CallState.exist_of_effect hstep.effect (h.exist hmade)
  · intro j k id hmade hmade'
    by_cases hj : j = i
    · by_cases hk : k = i
      · rw [hj, hk]
      · rw [hother k hk] at hmade'
        exact absurd (hj ▸ hmade) (hnew hk hmade')
    · rw [hother j hj] at hmade
      by_cases hk : k = i
      · exact absurd (hk ▸ hmade') (hnew hj hmade)
      · rw [hother k hk] at hmade'
        exact h.unique hmade hmade'
  · intro j content id hcall
    rw [contentPath, hpath]
    by_cases hj : j = i
    · subst hj
      rcases hstep.created hcall with ⟨hsame, hsame'⟩ | ⟨-, hcontent⟩
      · rw [hsame']
        exact h.kept (hsame.symm.trans hcall)
      · exact hcontent
    · rw [hother j hj] at hcall
      refine CallState.openRead_of_effect hstep.effect (fun hmade => hj ?_) (h.kept hcall)
      exact h.unique (by rw [hcall]; rfl) hmade

lemma Separate.run (h : s.Separate) (es : List (I × StorageFaults)) :
    (es.foldl (ConcurrentCalls.step float tree) s).Separate := by
  induction es generalizing s with
  | nil => exact h
  | cons e es ih => exact ih (h.step e)

/-- What a call has returned it goes on returning. -/
lemma call_step_of_created {content : Str} {result : Option MemeId} {i : I}
    (h : s.call i = .created content result) (e : I × StorageFaults) :
    (ConcurrentCalls.step float tree s e).call i = .created content result := by
  by_cases hi : i = e.1
  · refine (Function.update_apply ..).trans ?_
    rw [if_pos hi, ← hi, h]
    rfl
  · exact (Function.update_of_ne hi ..).trans h

lemma call_run_of_created {content : Str} {result : Option MemeId} {i : I}
    (h : s.call i = .created content result) (es : List (I × StorageFaults)) :
    (es.foldl (ConcurrentCalls.step float tree) s).call i = .created content result := by
  induction es generalizing s with
  | nil => exact h
  | cons e es ih => exact ih (call_step_of_created h e)

/-- Whatever the order of the steps and whatever fails, no two calls return that they have created
the same meme, and from then on no step writes its content. -/
theorem run_creates_apart {I F : Type} [DecidableEq I] (float : FloatArith F)
    (tree : PropertyTree F) (w : MemeState F) (calls : I → MemeCall)
    (es es' : List (I × StorageFaults)) :
    let s := es.foldl (step float tree) (start w calls)
    let s' := es'.foldl (step float tree) s
    (∀ i j a b id, s.call i = .created a (some id) → s.call j = .created b (some id) → i = j) ∧
      ∀ i content id, s.call i = .created content (some id) →
        s'.world.fs.openRead (s'.contentPath id) = .contents content ∧
          ∀ j name, (s'.call j).writes s'.world.memes = some name →
            s'.world.fs.resolve name ≠ s'.world.fs.resolve (s'.contentPath id) := by
  intro s s'
  have hs : s.Separate := (separate_start w calls).run es
  have hs' : s'.Separate := hs.run es'
  refine ⟨?_, ?_⟩
  · intro i j a b id hi hj
    exact hs.unique (by rw [hi]; rfl) (by rw [hj]; rfl)
  · intro i content id hi
    have hi' : s'.call i = .created content (some id) := call_run_of_created hi es'
    have hcontent := hs'.kept hi'
    refine ⟨hcontent, fun j name hwrites => ?_⟩
    obtain ⟨q, hq, -⟩ := FileSystem.resolve_of_openRead hcontent
    rw [hq]
    refine CallState.resolve_ne_of_writes hwrites (fun hmade => ?_) hq
    -- the call that made the meme has returned
    have hij : j = i := hs'.unique hmade (by rw [hi']; rfl)
    rw [hij, hi'] at hwrites
    cases hwrites

end ConcurrentCalls

end SocialNetworkApp
