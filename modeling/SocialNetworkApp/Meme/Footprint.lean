import SocialNetworkApp.Meme.Exceptions

/-!
# What a module of memes writes

Whatever fails, the operations on memes, deletions apart, write below the root of the module only,
and keep all directories; and so do all requests.
-/

namespace SocialNetworkApp

open SocialNetworkApp.Core

namespace Core.FileSystem

variable {fs fs' : FileSystem} {name n : Str} {p : List Str}

/-- What the name denotes is `p` or below it. -/
def NamesBelow (fs : FileSystem) (p : List Str) (name : Str) : Prop :=
  ∀ q, fs.resolve name = some q → p <+: q

lemma namesBelow_of_resolve (h : fs.resolve name = some p) : fs.NamesBelow p name := by
  intro q hq
  rw [Option.some.inj (h.symm.trans hq)]

lemma NamesBelow.append (h : fs.NamesBelow p name) (hname : name ≠ []) (hn : PlainName n) :
    fs.NamesBelow p (name ++ '/' :: n) := by
  intro q hq
  obtain ⟨r, hr, -, rfl⟩ := isDir_of_resolve_append hname hn.2.1 hq
  rw [stepName_of_plain r hn]
  exact (h r hr).trans (List.prefix_append r [n])

end Core.FileSystem

namespace BoostFileSystem

variable {faults : StorageFaults} {fs fs' : FileSystem} {path content : Str} {status : StatusF}
  {p : List Str}

lemma grows_writeFile (h : fs.NamesBelow p path)
    (hwrite : writeFile faults fs path content = (status, fs')) : fs.GrowsBelow p fs' := by
  rcases writeFile_cases hwrite with ⟨-, hfs'⟩ | ⟨-, rfl⟩
  · obtain ⟨q, hq, hdir, hsets⟩ := FileSystem.writeFile_eq_some hfs'
    obtain ⟨r, rfl⟩ := h q hq
    exact .of_sets hsets fun hp => absurd hp hdir
  · exact .refl fs' p

lemma grows_createDirectory (h : fs.NamesBelow p path)
    (hcreate : createDirectory faults fs path = (status, fs')) : fs.GrowsBelow p fs' := by
  rcases createDirectory_cases hcreate with ⟨-, -, hfs'⟩ | ⟨-, rfl⟩
  · obtain ⟨q, hq, -, hsets⟩ := FileSystem.createDirectory_eq_some hfs'
    obtain ⟨r, rfl⟩ := h q hq
    exact .of_sets hsets fun _ => rfl
  · exact .refl fs' p

end BoostFileSystem

namespace MemeModule

variable {F : Type} {float : FloatArith F} {faults : StorageFaults} {w : MemeState F} {id : MemeId}
  {fs : FileSystem} {memes : MemeModule F} {n : Str} {p : List Str}

/-! ### Paths -/

lemma namesBelow_memePath (h : fs.resolve memes.root = some p) :
    fs.NamesBelow p (memes.memePath id) := by
  have hroot : memes.root ≠ [] := by
    intro hnil
    rw [hnil] at h
    cases h
  exact (FileSystem.namesBelow_of_resolve h).append hroot (MemeId.plainName_toStr id)

lemma namesBelow_memeFile (h : fs.resolve memes.root = some p) (hn : PlainName n) :
    fs.NamesBelow p (memes.memePath id ++ '/' :: n) :=
  (namesBelow_memePath h).append (memePath_ne_nil memes id) hn

lemma namesBelow_comment (h : fs.resolve memes.root = some p) (hn : PlainName n) :
    fs.NamesBelow p (memes.memePath id ++ '/' :: "comments".toList ++ '/' :: n) :=
  (namesBelow_memeFile h (by decide)).append
    (List.append_ne_nil_of_left_ne_nil (memePath_ne_nil memes id) _) hn

/-! ### Operations -/

variable (h : w.fs.resolve w.memes.root = some p)

include h

lemma grows_incrementViewCount : w.fs.GrowsBelow p (incrementViewCount faults id w).fs := by
  have hviews : PlainName "views".toList := by decide
  exact BoostFileSystem.grows_writeFile (namesBelow_memeFile h hviews) rfl

lemma grows_addRating (rating : CInt) :
    w.fs.GrowsBelow p (addRating float faults id rating w).fs := by
  have hratings : PlainName "ratings".toList := by decide
  exact BoostFileSystem.grows_writeFile (namesBelow_memeFile h hratings) rfl

lemma grows_create (content : Str) : w.fs.GrowsBelow p (create faults content w).2.fs := by
  have hcontent : PlainName "content".toList := by decide
  simp only [create]
  cases hcreate : BoostFileSystem.createDirectory faults w.fs
      (memePath { w.memes with idCount := w.memes.idCount + 1 } (w.memes.idCount + 1)) with
  | mk status fs =>
    have hmade : w.fs.GrowsBelow p fs :=
      BoostFileSystem.grows_createDirectory (namesBelow_memePath h) hcreate
    cases status with
    | success =>
      have hpath : fs.NamesBelow p (memePath { w.memes with idCount := w.memes.idCount + 1 }
          (w.memes.idCount + 1) ++ '/' :: "content".toList) :=
        namesBelow_memeFile (hmade.resolve h) hcontent
      dsimp only
      split
      all_goals
        rename_i hwrite
        exact hmade.trans (BoostFileSystem.grows_writeFile hpath hwrite)
    | _ => exact hmade

lemma grows_addComment {uuid : Str} (huuid : PlainName uuid) (comment : Comment) :
    w.fs.GrowsBelow p (addComment faults uuid id comment w).fs := by
  have hcomments : PlainName "comments".toList := by decide
  rw [addComment]
  split_ifs with hexist
  · exact .refl w.fs p
  · have hmade : w.fs.GrowsBelow p
        (if !BoostFileSystem.exist w.fs (w.memes.memePath id ++ "/comments".toList) then
          (BoostFileSystem.createDirectory faults w.fs
            (w.memes.memePath id ++ "/comments".toList)).2
        else w.fs) := by
      split_ifs
      · exact BoostFileSystem.grows_createDirectory (namesBelow_memeFile h hcomments) rfl
      · exact .refl w.fs p
    exact hmade.trans
      (BoostFileSystem.grows_writeFile (namesBelow_comment (hmade.resolve h) huuid) rfl)

end MemeModule

/-! ### Requests -/

section

variable {F : Type} {float : FloatArith F} {tree : PropertyTree F} {p : List Str}
  {w w' : MemeState F}

/-- The state is reached by writing below `p` only, and the module has the root it had. -/
structure MemeState.WrittenBelow (p : List Str) (w w' : MemeState F) : Prop where
  grows : w.fs.GrowsBelow p w'.fs
  root_eq : w'.memes.root = w.memes.root

lemma MemeState.WrittenBelow.refl (p : List Str) (w : MemeState F) : w.WrittenBelow p w :=
  ⟨.refl w.fs p, rfl⟩

namespace MemeHandler

variable {chance : MemeChance} {location : Str} {req : Request} {res : Response}

lemma returns_fail {status : Status} (h : w.WrittenBelow p w') :
    Returns (fail res status w') fun reply => w.WrittenBelow p reply.state :=
  .ok h

lemma returns_answer {status : Status} {contentType body : Str} (h : w.WrittenBelow p w') :
    Returns (answer res status contentType body w') fun reply => w.WrittenBelow p reply.state :=
  .ok h

section

variable (h : w.fs.resolve w.memes.root = some p)

include h

/-- Where a meme is looked for, its views may be counted up. -/
lemma returns_get (faults : StorageFaults) (id : MemeId) :
    Returns (MemeModule.get float tree faults id w) fun found => w.WrittenBelow p found.2 := by
  rintro ⟨found, w'⟩ hfound
  rcases MemeModule.get_cases hfound with rfl | rfl
  · exact .refl p w'
  · exact ⟨MemeModule.grows_incrementViewCount h, rfl⟩

/-- What is answered with a meme that was looked for. -/
lemma returns_found {faults : StorageFaults} {id : MemeId} {contentType : Str}
    {page : Meme F → Str} :
    Returns (MemeModule.get float tree faults id w >>= fun found =>
      match found with
      | (none, w) => fail res .internal_server_error w
      | (some meme, w) => answer res .ok contentType (page meme) w)
      fun reply => w.WrittenBelow p reply.state := by
  intro reply hreply
  obtain ⟨⟨found, w'⟩, hfound, hreply⟩ := exists_of_bind_eq_ok hreply
  have hwritten := returns_get h faults id _ hfound
  cases found with
  | none => exact returns_fail hwritten reply hreply
  | some meme => exact returns_answer hwritten reply hreply

lemma returns_handlePostMeme : Returns (handlePostMeme float tree chance req res w)
    fun reply => w.WrittenBelow p reply.state := by
  refine .bind fun meme => ?_
  have hgrows : w.fs.GrowsBelow p (MemeModule.create chance.faults meme.content w).2.fs :=
    MemeModule.grows_create h meme.content
  have hroot : (MemeModule.create chance.faults meme.content w).2.memes.root = w.memes.root := by
    rw [MemeModule.memes_create]
  cases hcreate : MemeModule.create chance.faults meme.content w with
  | mk created w' =>
    rw [hcreate] at hgrows hroot
    cases created with
    | none => exact returns_fail ⟨hgrows, hroot⟩
    | some id => exact returns_answer ⟨hgrows, hroot⟩

lemma writtenBelow_comment (faults : StorageFaults) {uuid : Str} (huuid : PlainName uuid)
    (id : MemeId) (rating : CInt) (comment : Comment) :
    w.WrittenBelow p (MemeModule.addComment faults uuid id comment
      (MemeModule.addRating float faults id rating w)) := by
  have hrated : w.fs.GrowsBelow p (MemeModule.addRating float faults id rating w).fs :=
    MemeModule.grows_addRating h rating
  have hroot : (MemeModule.addRating float faults id rating w).memes.root = w.memes.root := rfl
  have hresolve : (MemeModule.addRating float faults id rating w).fs.resolve
      (MemeModule.addRating float faults id rating w).memes.root = some p := by
    rw [hroot]
    exact hrated.resolve h
  refine ⟨hrated.trans (MemeModule.grows_addComment hresolve huuid comment), ?_⟩
  rw [MemeModule.memes_addComment]
  exact hroot

lemma returns_handlePostComment (huuid : PlainName chance.uuid) :
    Returns (handlePostComment float tree chance req res w)
      fun reply => w.WrittenBelow p reply.state := by
  refine .bind fun comment => ?_
  split
  · exact returns_fail (.refl p w)
  · exact .error
  · split
    · exact returns_fail (.refl p w)
    · exact .error
    · exact returns_answer (writtenBelow_comment h chance.faults huuid _ _ comment)

lemma returns_handlePost (huuid : req.target = location ++ "/comment".toList →
    PlainName chance.uuid) : Returns (handlePost float tree chance location req res w)
      fun reply => w.WrittenBelow p reply.state := by
  rw [handlePost]
  split_ifs with hfound hcomment
  · exact returns_fail (.refl p w)
  · exact returns_handlePostComment h (huuid hcomment)
  · exact returns_handlePostMeme h
  · exact returns_fail (.refl p w)

lemma returns_handleGet : Returns (handleGet float tree chance location req res w)
    fun reply => w.WrittenBelow p reply.state := by
  have hrefl := MemeState.WrittenBelow.refl p w
  rw [handleGet]
  refine .ite (fun _ => ?_) fun _ => .ite (fun _ => ?_) fun _ => .ite (fun _ => ?_) fun _ => ?_
  · rw [handleCreationForm]
    split_ifs <;> exact .ok hrefl
  · rw [handleGetRandomMeme]
    exact .ite (fun _ => returns_fail hrefl) fun _ => returns_found h
  · exact returns_answer hrefl
  refine .bind fun byId => .ite (fun _ => .bind fun id => returns_found h) fun _ => ?_
  refine .bind fun info => .ite (fun _ => ?_) fun _ => .ite (fun _ => ?_) fun _ => ?_
  · exact .bind fun id => .bind fun comments => returns_answer hrefl
  · rw [handlePostCommentForm]
    split_ifs <;> exact .ok hrefl
  refine .bind fun byViews => .ite (fun _ => .bind fun views => returns_answer hrefl) fun _ => ?_
  refine .bind fun byRating => .ite (fun _ => .bind fun rating => returns_answer hrefl) fun _ => ?_
  exact returns_fail hrefl

/-- A request writes below the root of the module only, whatever fails. -/
lemma returns_handleRequest (huuid : req.method = .post →
    req.target = location ++ "/comment".toList → PlainName chance.uuid) :
    Returns (handleRequest float tree chance location req res w)
      fun reply => w.WrittenBelow p reply.state := by
  rw [handleRequest]
  split
  · exact returns_handlePost h (huuid ‹_›)
  · exact returns_handleGet h
  · exact returns_fail (.refl p w)

end

end MemeHandler

end

end SocialNetworkApp
