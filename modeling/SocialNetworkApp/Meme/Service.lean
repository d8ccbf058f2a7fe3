import SocialNetworkApp.Meme.Board
import SocialNetworkApp.Meme.Footprint

/-!
# The memes as a board

A handler of memes on a root that is empty at first answers every run of requests as a board does
that starts empty, whatever the requests are. Only exceptions end it.
-/

namespace SocialNetworkApp

open SocialNetworkApp.Core

variable {F : Type} {float : FloatArith F} {tree : PropertyTree F} {p : List Str} {root : Str}
  {location : Str} {w w' : MemeState F} {b b' : MemeBoard} {id : MemeId} {m : MemeRecord}

/-- The disk and the module hold the board. -/
structure MemeBoard.Held (float : FloatArith F) (tree : PropertyTree F) (p : List Str) (root : Str)
    (w : MemeState F) (b : MemeBoard) : Prop where
  stored : Stored float p root w b.store
  valid : b.store.Valid tree
  last : w.memes.idCount.toNat = b.memes.length
  ratings : ∀ id, w.memes.ratings.lookup id = b.ratings float id
  length_lt : b.memes.length < 2 ^ 31

namespace MemeBoard.Held

variable (h : Held float tree p root w b)

include h

lemma resolve_root : w.fs.resolve w.memes.root = some p := by
  rw [h.stored.memory.root_eq]
  exact h.stored.disk.denotes.resolve

/-- What is written elsewhere leaves the board as it is, as long as the root is found. -/
lemma elsewhere {fs' : FileSystem} {R : List Str} (hgrows : w.fs.GrowsBelow R fs')
    (hapart : FileSystem.Apart R p) (hname : fs'.Denotes root p) :
    Held float tree p root ⟨fs', w.memes⟩ b := by
  have hnode := hgrows.node_apart hapart
  have hdisk := h.stored.disk
  refine ⟨⟨⟨hname, hgrows.isDir p hdisk.dir, ?_, ?_⟩, h.stored.memory⟩, h.valid, h.last,
    h.ratings, h.length_lt⟩
  · intro n x hx
    rw [hnode] at hx
    exact hdisk.named hx
  · intro id
    refine (hdisk.holds id).congr fun q => ?_
    rw [List.append_assoc]
    exact hnode _

/-! ### What is shown -/

lemma getViewCount (id : MemeId) : w.memes.getViewCount id = b.views id := by
  rw [MemeModule.getViewCount, views, h.stored.memory.viewCounts]
  cases (b.store id).bind MemeRecord.count <;> rfl

lemma getRating (id : MemeId) : w.memes.getRating float id = b.rating float id := by
  rw [MemeModule.getRating, rating, h.ratings]
  cases b.ratings float id <;> rfl

lemma getMemeCount : w.memes.getMemeCount.val = b.memes.length := by
  have hlt := h.length_lt
  rw [MemeModule.getMemeCount, MemeId.toCInt, h.last]
  simp only [CInt.wrap]
  omega

/-- A listing shows the lines of the board. -/
lemma listing (shown : MemeId → Bool) :
    MemeHandler.listing w.memes shown =
      b.lines.filter fun line => shown (MemeId.ofCInt line.1) := by
  have hids : MemeHandler.listedIds w.memes =
      (List.range b.memes.length).map fun k => CInt.wrap (k + 1) := by
    rw [MemeHandler.listedIds, h.getMemeCount, Int.toNat_natCast]
  have hviews : (fun n => (n, w.memes.getViewCount (MemeId.ofCInt n))) =
      fun n => (n, b.views (MemeId.ofCInt n)) := by
    funext n
    rw [h.getViewCount]
  rw [MemeHandler.listing, hids, hviews, lines, List.filter_map, List.filter_map, List.map_map]
  rfl

lemma listPage_eq (location : Str) (shown : MemeId → Bool) :
    MemeHandler.listPage location w.memes shown =
      listPage location (b.lines.filter fun line => shown (MemeId.ofCInt line.1)) := by
  unfold MemeHandler.listPage listPage
  rw [MemeHandler.flatMap_listLine, h.listing]

/-! ### What is done -/

lemma next_eq : w.memes.idCount + 1 = b.next := by
  have hlt := h.length_lt
  rw [← UInt32.toNat_inj, toNat_next hlt, UInt32.toNat_add, h.last, UInt32.toNat_one]
  omega

/-- A meme that is created is posted. -/
lemma create {content : Str} (hne : content ≠ []) (hparses : Meme.Parses tree content)
    (hlt : b.memes.length + 1 < 2 ^ 31) :
    ∃ w', MemeModule.create {} content w = (some b.next, w') ∧
      Held float tree p root w' (b.post content) := by
  obtain ⟨w', hcreate, hcount, hstored⟩ := h.stored.create content (h.last.trans_lt h.length_lt)
  have hmemes := @MemeModule.memes_create F {} w content
  rw [hcreate] at hmemes
  rw [h.next_eq] at hcreate hcount hstored
  refine ⟨w', hcreate, ⟨?_, ?_, ?_, ?_, ?_⟩⟩
  · rw [store_post content h.length_lt]
    exact hstored
  · rw [store_post content h.length_lt]
    have hcontent : (MemeOp.create content).Valid tree :=
      ⟨hne, fun count rating => succeeds_meme_make_iff.mpr hparses⟩
    exact MemeOp.valid_record h.valid hcontent (fun n hn => by cases hn) (some b.next)
  · rw [hcount, toNat_next h.length_lt, post, List.length_append]
    rfl
  · intro id
    rw [show w'.memes = _ from hmemes]
    exact h.ratings id
  · rw [post, List.length_append]
    exact hlt

/-- A meme that is looked at has one more view. -/
lemma view (id : MemeId) (hm : b.store id = some m) :
    Held float tree p root (MemeModule.incrementViewCount {} id w) (b.view id) := by
  have hstored := h.stored.incrementViewCount hm
  have hget : (MemeOp.get id).Valid tree := trivial
  have hvalid := MemeOp.valid_record h.valid hget (fun n hn => by cases hn) none
  refine ⟨?_, ?_, ?_, ?_, ?_⟩
  · rw [store_view]
    exact hstored
  · rw [store_view]
    exact hvalid
  · rw [MemeModule.incrementViewCount_eq, MemeBoard.view, length_change]
    exact h.last
  · intro id'
    rw [MemeModule.incrementViewCount_eq, MemeBoard.view, ratings_change]
    exact h.ratings id'
  · rw [MemeBoard.view, length_change]
    exact h.length_lt

/-- What `get` returns. -/
lemma get (id : MemeId) (hm : b.store id = some m) :
    ∃ meme, MemeModule.get float tree {} id w =
        .ok (some meme, MemeModule.incrementViewCount {} id w) ∧
      Meme.make tree m.content (CInt.wrap (m.views + 1 : Nat)) (b.rating float id) = .ok meme := by
  obtain ⟨meme, hget, hcontent⟩ := h.stored.get hm (h.valid id m hm)
  have hheld := h.view id hm
  have hviews : (b.view id).views id = CInt.wrap (m.views + 1 : Nat) := by
    rw [views, store_view, MemeStore.view, Function.update_self, hm]
    rfl
  have hrating : (b.view id).rating float id = b.rating float id :=
    congrFun (rating_change _) id
  refine ⟨meme, hget, ?_⟩
  have hdir : w.fs.isDirectory (w.memes.memePath id) = true := by
    rw [h.stored.memePath_eq, h.stored.disk.isDirectory_meme, hm]
    rfl
  rw [MemeModule.get_of_isDirectory hdir] at hget
  rw [← hviews, ← hrating, ← hheld.getViewCount, ← hheld.getRating, ← hcontent]
  split at hget
  · cases hget
  · cases hget
  · cases hget
  · obtain ⟨made, hmade, heq⟩ := exists_of_map_eq_ok hget
    cases heq
    rw [Meme.content_of_make hmade]
    exact hmade

/-- A rating is counted, whether or not there is a meme. -/
lemma rate (id : MemeId) (rating : CInt) :
    Held float tree p root (MemeModule.addRating float {} id rating w) (b.rate id rating) := by
  have hstored := h.stored.addRating id rating
  refine ⟨hstored, h.valid, ?_, ?_, h.length_lt⟩
  · rw [MemeModule.addRating_eq]
    exact h.last
  · intro id'
    rw [MemeModule.addRating_eq, ratings_rate]
    split_ifs with hid
    · rw [hid, ← h.ratings]
      exact AList.lookup_insert _
    · exact (AList.lookup_insert_ne hid).trans (h.ratings id')

/-- A comment stands with the others, if there is a meme. -/
lemma comment {uuid : Str} (hplain : PlainName uuid) (hnew : ¬ b.store.Names uuid) (id : MemeId)
    {comment : Comment} (hmade : Comment.make tree comment.content = .ok comment) :
    Held float tree p root (MemeModule.addComment {} uuid id comment w)
      (b.comment id uuid comment) := by
  have hstored := h.stored.addComment hplain
    (fun m hm hmem => hnew ⟨id, m, hm, hmem⟩) comment
  have hadd : (MemeOp.addComment ⟨uuid, hplain⟩ id comment).Valid tree := hmade
  have hvalid := MemeOp.valid_record h.valid hadd (fun n hn => by cases hn; exact hnew) none
  refine ⟨?_, ?_, ?_, ?_, ?_⟩
  · rw [store_comment]
    exact hstored
  · rw [store_comment]
    exact hvalid
  · rw [MemeModule.memes_addComment, MemeBoard.comment, length_change]
    exact h.last
  · intro id'
    rw [MemeModule.memes_addComment, MemeBoard.comment, ratings_change]
    exact h.ratings id'
  · rw [MemeBoard.comment, length_change]
    exact h.length_lt

/-- The comments of a meme come in the order of the directory. -/
lemma getComments (id : MemeId) :
    ∃ comments, MemeModule.getComments tree {} id w = .ok comments ∧
      comments.Perm (b.comments id) := by
  rw [comments]
  cases hm : b.store id with
  | none => exact ⟨[], h.stored.getComments_of_none hm, List.Perm.refl _⟩
  | some m => exact h.stored.getComments hm (h.valid id m hm).commented

end MemeBoard.Held

/-! ### Requests -/

namespace MemeHandler

/-- A target that passed the check ends in a number below the url. -/
lemma checkNumber_eq_true {N : Type} {read : Str → Except NumError N} {target url : Str}
    (h : checkNumber read target url = .ok true) :
    ∃ n, read (possibleId target) = .ok n ∧ upToLastSlash target = url := by
  rw [checkNumber] at h
  split at h
  · rename_i n hn
    exact ⟨n, hn, of_decide_eq_true (Except.ok.inj h)⟩
  · cases h
  · cases h

lemma checkNumber_eq_false {N : Type} {read : Str → Except NumError N} {target url : Str}
    (h : checkNumber read target url = .ok false) (hread : Succeeds (read (possibleId target))) :
    upToLastSlash target ≠ url := by
  obtain ⟨n, hn⟩ := hread
  rw [checkNumber, hn] at h
  exact of_decide_eq_false (Except.ok.inj h)

end MemeHandler

namespace MemeBoard

variable {req : Request} {chance : MemeChance}

/-- The reply is what the board answers, the board is held on, and nothing is written but below the
root. -/
def Agrees (float : FloatArith F) (tree : PropertyTree F) (p : List Str) (root location : Str)
    (w : MemeState F) (b : MemeBoard) (req : Request) (chance : MemeChance)
    (reply : Reply (MemeState F)) : Prop :=
  ∃ b', Serves float tree location b ⟨req, chance, reply.status, reply.response⟩ b' ∧
    Held float tree p root reply.state b' ∧ w.fs.GrowsBelow p reply.state.fs

section

variable (h : Held float tree p root w b) (hfaults : chance.faults = {})

include h

lemma agrees_of_eq {reply reply' : Reply (MemeState F)}
    (hreply : (.ok reply : Except Exception (Reply (MemeState F))) = .ok reply')
    (hserves : Serves float tree location b ⟨req, chance, reply.status, reply.response⟩ b)
    (hstate : reply.state = w) : Agrees float tree p root location w b req chance reply' := by
  cases hreply
  rw [Agrees, hstate]
  exact ⟨b, hserves, h, .refl w.fs p⟩

include hfaults

lemma agrees_postMeme (htree : ¬ Meme.Parses tree []) (hmethod : req.method = .post)
    (htarget : req.target = location) (hlt : b.memes.length + 1 < 2 ^ 31) :
    Returns (MemeHandler.handlePostMeme float tree chance req {} w)
      (Agrees float tree p root location w b req chance) := by
  intro reply hreply
  obtain ⟨meme, hmeme, hrest⟩ := exists_of_bind_eq_ok hreply
  have hbody : Meme.Parses tree req.body := succeeds_meme_make_iff.mp ⟨meme, hmeme⟩
  have hne : req.body ≠ [] := fun hnil => htree (hnil ▸ hbody)
  obtain ⟨w', hcreate, hheld⟩ := h.create hne hbody hlt
  have hgrows := @MemeModule.grows_create F {} w p h.resolve_root req.body
  rw [hcreate] at hgrows
  rw [Meme.content_of_make hmeme, hfaults, hcreate] at hrest
  cases hrest
  exact ⟨_, .posted chance hmethod htarget hbody, hheld, hgrows⟩

lemma agrees_postComment (hplain : PlainName chance.uuid) (hnew : ¬ b.store.Names chance.uuid)
    (hmethod : req.method = .post) (htarget : req.target = location ++ "/comment".toList) :
    Returns (MemeHandler.handlePostComment float tree chance req {} w)
      (Agrees float tree p root location w b req chance) := by
  intro reply hreply
  obtain ⟨comment, hcomment, -⟩ := exists_of_bind_eq_ok hreply
  have hmade : Comment.make tree comment.content = .ok comment := by
    rwa [Comment.content_of_make hcomment]
  by_cases hnumbers : ∃ n rating, stoi comment.id = .ok n ∧ stoi comment.rating = .ok rating
  · obtain ⟨n, rating, hn, hrating⟩ := hnumbers
    rw [handlePostComment_of_ok hcomment hn hrating, hfaults] at hreply
    cases hreply
    have hrated := h.rate (MemeId.ofCInt n) rating
    exact ⟨_, .commented chance hmethod htarget hcomment hn hrating,
      hrated.comment hplain hnew _ hmade, (MemeModule.grows_addRating h.resolve_root rating).trans
        (MemeModule.grows_addComment hrated.resolve_root hplain comment)⟩
  · have hmissing := missing_of_handlePostComment hcomment hnumbers hreply
    rw [handlePostComment_of_missing hcomment hmissing] at hreply
    cases hreply
    exact ⟨b, .notCommented chance hmethod htarget hcomment hmissing, h, .refl w.fs p⟩

lemma agrees_random (hmethod : req.method = .get)
    (htarget : req.target = location ++ "/random".toList) :
    Returns (MemeHandler.handleGetRandomMeme float tree chance {} w)
      (Agrees float tree p root location w b req chance) := by
  intro reply hreply
  have hcount := h.getMemeCount
  have hlt := h.length_lt
  rw [MemeHandler.handleGetRandomMeme] at hreply
  by_cases hempty : b.memes = []
  · have hzero : w.memes.getMemeCount = 0 := by
      apply CInt.ext
      rw [hcount, hempty]
      rfl
    simp only [hzero, if_true] at hreply
    exact agrees_of_eq h hreply (.nothingRandom chance hmethod htarget hempty) rfl
  · have hpos : 0 < b.memes.length := List.length_pos_of_ne_nil hempty
    have hne : w.memes.getMemeCount ≠ 0 := by
      intro hzero
      rw [hzero] at hcount
      exact absurd hcount.symm (Int.natCast_ne_zero.mpr hpos.ne')
    have hmod := Nat.mod_lt chance.random hpos
    have hid : MemeId.ofCInt (CInt.wrap (Int.tmod chance.random w.memes.getMemeCount.val + 1)) =
        UInt32.ofNat (chance.random % b.memes.length + 1) := by
      have hnat := MemeId.toNat_ofCInt
        (CInt.wrap (Int.tmod chance.random w.memes.getMemeCount.val + 1))
      rw [← UInt32.toNat_inj, UInt32.toNat_ofNat', ← Int.ofNat_inj, hnat, hcount, ← Int.ofNat_tmod]
      simp only [CInt.wrap]
      omega
    obtain ⟨m, hm⟩ : ∃ m, b.memes[chance.random % b.memes.length]? = some m :=
      ⟨_, List.getElem?_eq_getElem hmod⟩
    have hstore : b.store (UInt32.ofNat (chance.random % b.memes.length + 1)) = some m := by
      have hnat : (UInt32.ofNat (chance.random % b.memes.length + 1)).toNat =
          chance.random % b.memes.length + 1 := by
        rw [UInt32.toNat_ofNat']
        omega
      rw [store_eq_some_iff, hnat, Nat.add_sub_cancel]
      exact ⟨Nat.le_add_left 1 _, hm⟩
    obtain ⟨meme, hget, hmeme⟩ := h.get _ hstore
    simp only [if_neg hne, hid, hfaults, hget, ok_bind] at hreply
    cases hreply
    refine ⟨_, ?_, h.view _ hstore, MemeModule.grows_incrementViewCount h.resolve_root⟩
    rw [Meme.content_of_make hmeme]
    exact .random chance hmethod htarget hm

lemma agrees_byId (hmethod : req.method = .get) {n : CInt}
    (hn : stoi (possibleId req.target) = .ok n)
    (htarget : MemeHandler.upToLastSlash req.target = location ++ "/".toList) :
    Returns (MemeHandler.handleGetMemeById float tree chance location req {} w)
      (Agrees float tree p root location w b req chance) := by
  intro reply hreply
  rw [MemeHandler.handleGetMemeById, MemeHandler.readNumber_of_ok hn, ok_bind, hfaults] at hreply
  cases hm : b.store (MemeId.ofCInt n) with
  | none =>
    rw [h.stored.get_of_none hm] at hreply
    cases hreply
    exact ⟨b, .noId chance hmethod hn htarget hm, h, .refl w.fs p⟩
  | some m =>
    obtain ⟨meme, hget, hmeme⟩ := h.get _ hm
    rw [hget] at hreply
    cases hreply
    exact ⟨_, .byId chance hmethod hn htarget hm hmeme, h.view _ hm,
      MemeModule.grows_incrementViewCount h.resolve_root⟩

lemma agrees_info (hmethod : req.method = .get) {n : CInt}
    (hn : stoi (possibleId req.target) = .ok n)
    (htarget : MemeHandler.upToLastSlash req.target = location ++ "/info/".toList) :
    Returns (MemeHandler.handleGetOtherInfoById float tree chance req {} w)
      (Agrees float tree p root location w b req chance) := by
  intro reply hreply
  obtain ⟨comments, hcomments, hperm⟩ := h.getComments (MemeId.ofCInt n)
  rw [MemeHandler.handleGetOtherInfoById, MemeHandler.readNumber_of_ok hn, ok_bind, hfaults,
    hcomments, ok_bind, h.getViewCount, h.getRating] at hreply
  exact agrees_of_eq h hreply (.info chance hmethod hn htarget hperm) rfl

omit hfaults in
lemma agrees_byViews (hmethod : req.method = .get) {n : CInt}
    (hn : stoi (possibleId req.target) = .ok n)
    (htarget : MemeHandler.upToLastSlash req.target = location ++ "/get_by_views/".toList) :
    Returns (MemeHandler.handleGetMemeByViews location req {} w)
      (Agrees float tree p root location w b req chance) := by
  intro reply hreply
  have hshown : (fun id => decide (n < w.memes.getViewCount id)) =
      fun id => decide (n < b.views id) := by
    funext id
    rw [h.getViewCount]
  have hlines : (b.lines.filter fun line => decide (n < b.views (MemeId.ofCInt line.1))) =
      b.lines.filter fun line => decide (n < line.2) := by
    rw [lines, List.filter_map, List.filter_map]
    rfl
  rw [MemeHandler.handleGetMemeByViews, MemeHandler.readNumber_of_ok hn, ok_bind, hshown,
    h.listPage_eq, hlines] at hreply
  exact agrees_of_eq h hreply (.byViews chance hmethod hn htarget) rfl

omit hfaults in
lemma agrees_byRating (hmethod : req.method = .get) {x : F}
    (hx : float.stof (possibleId req.target) = .ok x)
    (htarget : MemeHandler.upToLastSlash req.target = location ++ "/get_by_rating/".toList) :
    Returns (MemeHandler.handleGetMemeByRating float location req {} w)
      (Agrees float tree p root location w b req chance) := by
  intro reply hreply
  have hshown : (fun id => float.gt (w.memes.getRating float id) x) =
      fun id => float.gt (b.rating float id) x := by
    funext id
    rw [h.getRating]
  rw [MemeHandler.handleGetMemeByRating, MemeHandler.readNumber_of_ok hx, ok_bind, hshown,
    h.listPage_eq] at hreply
  exact agrees_of_eq h hreply (.byRating chance hmethod hx htarget) rfl

omit hfaults in
lemma agrees_all (hmethod : req.method = .get)
    (htarget : req.target = location ++ "/all".toList) :
    Returns (MemeHandler.handleGetAllMemes location {} w)
      (Agrees float tree p root location w b req chance) := by
  intro reply hreply
  have hlines : (b.lines.filter fun _ => true) = b.lines :=
    List.filter_eq_self.mpr fun _ _ => rfl
  rw [MemeHandler.handleGetAllMemes, h.listPage_eq, hlines] at hreply
  exact agrees_of_eq h hreply (.all chance hmethod htarget) rfl

lemma agrees_get (hmethod : req.method = .get) :
    Returns (MemeHandler.handleGet float tree chance location req {} w)
      (Agrees float tree p root location w b req chance) := by
  intro reply hreply
  rw [MemeHandler.handleGet] at hreply
  by_cases hform : req.target = location ++ "/creation_form".toList
  · simp only [MemeHandler.handleCreationForm, hform, ne_eq, not_true_eq_false,
      if_false] at hreply
    exact agrees_of_eq h hreply (.creationForm chance hmethod hform) rfl
  rw [if_neg hform] at hreply
  by_cases hrandom : req.target = location ++ "/random".toList
  · rw [if_pos hrandom] at hreply
    exact agrees_random h hfaults hmethod hrandom reply hreply
  rw [if_neg hrandom] at hreply
  by_cases hall : req.target = location ++ "/all".toList
  · rw [if_pos hall] at hreply
    exact agrees_all h hmethod hall reply hreply
  rw [if_neg hall] at hreply
  obtain ⟨byId, hbyId, hreply⟩ := exists_of_bind_eq_ok hreply
  cases byId with
  | true =>
    obtain ⟨n, hn, htarget⟩ := MemeHandler.checkNumber_eq_true hbyId
    exact agrees_byId h hfaults hmethod hn htarget reply hreply
  | false =>
  obtain ⟨info, hinfo, hreply⟩ := exists_of_bind_eq_ok hreply
  cases info with
  | true =>
    obtain ⟨n, hn, htarget⟩ := MemeHandler.checkNumber_eq_true hinfo
    exact agrees_info h hfaults hmethod hn htarget reply hreply
  | false =>
  by_cases hcomment : req.target = location ++ "/comment_form".toList
  · simp only [if_pos hcomment, Bool.false_eq_true, if_false] at hreply
    simp only [MemeHandler.handlePostCommentForm, hcomment, ne_eq, not_true_eq_false, if_false]
      at hreply
    exact agrees_of_eq h hreply (.commentForm chance hmethod hcomment) rfl
  simp only [if_neg hcomment, Bool.false_eq_true, if_false] at hreply
  obtain ⟨byViews, hviews, hreply⟩ := exists_of_bind_eq_ok hreply
  cases byViews with
  | true =>
    obtain ⟨n, hn, htarget⟩ := MemeHandler.checkNumber_eq_true hviews
    exact agrees_byViews h hmethod hn htarget reply hreply
  | false =>
  obtain ⟨byRating, hrating, hreply⟩ := exists_of_bind_eq_ok hreply
  cases byRating with
  | true =>
    obtain ⟨x, hx, htarget⟩ := MemeHandler.checkNumber_eq_true hrating
    exact agrees_byRating h hmethod hx htarget reply hreply
  | false =>
    refine agrees_of_eq h hreply (.unknown chance hmethod ?_ ?_) rfl
    · rintro (htarget | htarget | htarget | htarget)
      · exact hform htarget
      · exact hrandom htarget
      · exact hall htarget
      · exact hcomment htarget
    · rintro (⟨n, hn, htarget | htarget | htarget⟩ | ⟨x, hx, htarget⟩)
      · exact MemeHandler.checkNumber_eq_false hbyId ⟨n, hn⟩ htarget
      · exact MemeHandler.checkNumber_eq_false hinfo ⟨n, hn⟩ htarget
      · exact MemeHandler.checkNumber_eq_false hviews ⟨n, hn⟩ htarget
      · exact MemeHandler.checkNumber_eq_false hrating ⟨x, hx⟩ htarget

lemma agrees_post (htree : ¬ Meme.Parses tree [])
    (hdrawn : req.target = location ++ "/comment".toList →
      PlainName chance.uuid ∧ ¬ b.store.Names chance.uuid)
    (hlt : b.memes.length + 1 < 2 ^ 31) (hmethod : req.method = .post) :
    Returns (MemeHandler.handlePost float tree chance location req {} w)
      (Agrees float tree p root location w b req chance) := by
  intro reply hreply
  rw [MemeHandler.handlePost] at hreply
  split_ifs at hreply with hfound hcomment hmeme
  · refine agrees_of_eq h hreply (.notPosted chance hmethod ?_ ?_) rfl
    · intro htarget
      have hself := findStr_self_append location []
      rw [List.append_nil] at hself
      rw [htarget, hself] at hfound
      cases hfound
    · intro htarget
      rw [htarget, findStr_self_append] at hfound
      cases hfound
  · obtain ⟨hplain, hnew⟩ := hdrawn hcomment
    exact agrees_postComment h hfaults hplain hnew hmethod hcomment reply hreply
  · exact agrees_postMeme h hfaults htree hmethod hmeme hlt reply hreply
  · exact agrees_of_eq h hreply (.notPosted chance hmethod hmeme hcomment) rfl

/-- Every request that is answered is answered as by the board. -/
lemma agrees_request (htree : ¬ Meme.Parses tree [])
    (hdrawn : req.method = .post → req.target = location ++ "/comment".toList →
      PlainName chance.uuid ∧ ¬ b.store.Names chance.uuid) (hlt : b.memes.length + 1 < 2 ^ 31) :
    Returns (MemeHandler.handleRequest float tree chance location req {} w)
      (Agrees float tree p root location w b req chance) := by
  intro reply hreply
  rw [MemeHandler.handleRequest] at hreply
  split at hreply
  · rename_i hmethod
    exact agrees_post h hfaults htree (hdrawn hmethod) hlt hmethod reply hreply
  · rename_i hmethod
    exact agrees_get h hfaults hmethod reply hreply
  · rename_i hpost hget
    exact agrees_of_eq h hreply (.otherMethod chance hget hpost) rfl

end

/-! ### Runs -/

/-- The name that was drawn for a comment. -/
def Exchange.drawn (location : Str) (e : Exchange) : Option Str :=
  if e.request.method = .post ∧ e.request.target = location ++ "/comment".toList then
    some e.chance.uuid
  else none

lemma Exchange.drawn_eq_some_iff {e : Exchange} {n : Str} :
    e.drawn location = some n ↔ (e.request.method = .post ∧
      e.request.target = location ++ "/comment".toList) ∧ e.chance.uuid = n := by
  rw [drawn]
  split_ifs with hcomment
  · rw [Option.some_inj, and_iff_right hcomment]
  · exact iff_of_false (by simp) fun h => hcomment h.1

/-- An exchange adds one meme at most, and no name but the one that was drawn. -/
lemma Serves.bounds {e : Exchange} (hserves : Serves float tree location b e b')
    (hlt : b.memes.length < 2 ^ 31) :
    b'.memes.length ≤ b.memes.length + 1 ∧
      ∀ n, b'.store.Names n → b.store.Names n ∨ e.drawn location = some n := by
  have hsame : b.memes.length ≤ b.memes.length + 1 := Nat.le_succ _
  have hview : ∀ id, (b.view id).memes.length ≤ b.memes.length + 1 := by
    intro id
    rw [MemeBoard.view, length_change]
    exact hsame
  have hnames : ∀ id n, (b.view id).store.Names n → b.store.Names n := by
    intro id n hn
    rw [store_view] at hn
    rcases hn.of_update with hn | ⟨m, hm, hn⟩
    · exact hn
    · obtain ⟨m₀, hm₀, rfl⟩ := Option.map_eq_some_iff.mp hm
      exact ⟨id, m₀, hm₀, hn⟩
  cases hserves with
  | posted chance hmethod htarget hbody =>
    refine ⟨?_, fun n hn => Or.inl ?_⟩
    · rw [post, List.length_append]
      exact Nat.le_refl _
    · rw [store_post _ hlt] at hn
      rcases hn.of_update with hn | ⟨m, hm, hn⟩
      · exact hn
      · cases hm
        exact absurd hn List.not_mem_nil
  | commented chance hmethod htarget hbody hn hrating =>
    refine ⟨?_, fun n hn => ?_⟩
    · rw [MemeBoard.comment, length_change]
      exact hsame
    · rw [store_comment] at hn
      rcases hn.of_update with hn | ⟨m, hm, hn⟩
      · exact Or.inl hn
      · obtain ⟨m₀, hm₀, rfl⟩ := Option.map_eq_some_iff.mp hm
        rw [List.map_append, List.mem_append] at hn
        rcases hn with hn | hn
        · exact Or.inl ⟨_, m₀, hm₀, hn⟩
        · exact Or.inr (Exchange.drawn_eq_some_iff.mpr
            ⟨⟨hmethod, htarget⟩, (List.mem_singleton.mp hn).symm⟩)
  | random chance hmethod htarget hm => exact ⟨hview _, fun n hn => Or.inl (hnames _ n hn)⟩
  | byId chance hmethod hn htarget hm hmeme =>
    exact ⟨hview _, fun n hn => Or.inl (hnames _ n hn)⟩
  | _ => exact ⟨hsame, fun n hn => Or.inl hn⟩

end MemeBoard

namespace MemeHandler

/-- The handler answers a request. -/
def Exchanges (float : FloatArith F) (tree : PropertyTree F) (location : Str) (w : MemeState F)
    (e : MemeBoard.Exchange) (w' : MemeState F) : Prop :=
  handleRequest float tree e.chance location e.request {} w = .ok ⟨e.status, e.response, w'⟩

lemma run_held (htree : ¬ Meme.Parses tree []) {es : List MemeBoard.Exchange}
    (h : b.Held float tree p root w) (hfaults : ∀ e ∈ es, e.chance.faults = {})
    (hplain : ∀ n ∈ es.filterMap (MemeBoard.Exchange.drawn location), PlainName n)
    (hnodup : (es.filterMap (MemeBoard.Exchange.drawn location)).Nodup)
    (hfresh : ∀ n ∈ es.filterMap (MemeBoard.Exchange.drawn location), ¬ b.store.Names n)
    (hlength : b.memes.length + es.length < 2 ^ 31)
    (hrun : Run (Exchanges float tree location) w es w') :
    ∃ b', Run (MemeBoard.Serves float tree location) b es b' ∧ b'.Held float tree p root w' := by
  induction hrun generalizing b with
  | nil => exact ⟨b, .nil b, h⟩
  | @cons w w₁ w' e es hstep hrest ih =>
    rw [List.length_cons] at hlength
    have hsub := (List.sublist_cons_self e es).filterMap (MemeBoard.Exchange.drawn location)
    have hdrawn : e.request.method = .post → e.request.target = location ++ "/comment".toList →
        PlainName e.chance.uuid ∧ ¬ b.store.Names e.chance.uuid := by
      intro hmethod htarget
      have hmem : e.chance.uuid ∈ (e :: es).filterMap (MemeBoard.Exchange.drawn location) :=
        List.mem_filterMap.mpr ⟨e, List.mem_cons_self,
          MemeBoard.Exchange.drawn_eq_some_iff.mpr ⟨⟨hmethod, htarget⟩, rfl⟩⟩
      exact ⟨hplain _ hmem, hfresh _ hmem⟩
    have hlt : b.memes.length + 1 < 2 ^ 31 := by omega
    obtain ⟨b₁, hserves, hheld, -⟩ :=
      MemeBoard.agrees_request h (hfaults e List.mem_cons_self) htree hdrawn hlt _ hstep
    obtain ⟨hcount, hnames⟩ := hserves.bounds h.length_lt
    have hnew : ∀ n ∈ es.filterMap (MemeBoard.Exchange.drawn location), ¬ b₁.store.Names n := by
      intro n hn hname
      rcases hnames n hname with hname | hdrawn
      · exact hfresh n (hsub.subset hn) hname
      · rw [List.filterMap_cons_some hdrawn] at hnodup
        exact (List.nodup_cons.mp hnodup).1 hn
    obtain ⟨b', hrun, hheld'⟩ := ih hheld (fun e' he' => hfaults e' (List.mem_cons_of_mem _ he'))
      (fun n hn => hplain n (hsub.subset hn)) (hnodup.sublist hsub) hnew (by omega)
    exact ⟨b', .cons hserves hrun, hheld'⟩

/-- A new module on an empty root holds the empty board. -/
lemma held_empty {fs : FileSystem} (hfloat : float.Reads) (hroot : root.getLast? ≠ some '/')
    (hname : fs.Denotes root p) (hp : fs.tree.IsDir p) (hempty : fs.tree.children p = [])
    (uninit : MemeModule.Uninit) :
    ∃ memes, MemeModule.load float {} uninit fs root = .ok memes ∧
      MemeBoard.empty.Held float tree p root ⟨fs, memes⟩ := by
  have hdisk := @OnDisk.of_empty _ float _ _ _ hname.resolve hp hempty
  obtain ⟨memes, hload, hmemory, hlast⟩ := hdisk.load hfloat hroot uninit
  refine ⟨memes, hload, ?_, ?_, ?_, ?_, ?_⟩
  · rw [MemeBoard.store_empty]
    exact ⟨hdisk, hmemory⟩
  · rw [MemeBoard.store_empty]
    intro id m hm
    cases hm
  · rcases hlast with hzero | ⟨m, hm⟩
    · rw [show memes.idCount = 0 from hzero]
      rfl
    · cases hm
  · intro id
    obtain ⟨-, -, -, -, hratings⟩ :=
      MemeModule.load_eq_ok hroot hdisk.named_entries hdisk.isDirectory_root hload
    have hnone : ¬ MemeExists fs root id := by
      rw [MemeExists, hdisk.isDirectory_meme]
      exact Bool.false_ne_true
    rw [hratings, if_neg hnone]
    rfl
  · exact Nat.two_pow_pos 31

/-- On a root that is empty at first, every run of requests that are answered is a run of the board,
whatever the requests are, and the module and its disk hold the board in the end. -/
theorem run_serves_board {float : FloatArith F} {tree : PropertyTree F} {location root : Str}
    {uninit : MemeModule.Uninit} {fs : FileSystem} {memes : MemeModule F}
    (hfloat : float.Reads) (htree : ¬ Meme.Parses tree []) (hroot : root.getLast? ≠ some '/')
    (hdir : fs.isDirectory root = true) (hempty : fs.entries root = [])
    (hload : MemeModule.load float {} uninit fs root = .ok memes)
    {es : List MemeBoard.Exchange} {w : MemeState F}
    (hfaults : ∀ e ∈ es, e.chance.faults = {})
    (hplain : ∀ n ∈ es.filterMap (MemeBoard.Exchange.drawn location), PlainName n)
    (hnodup : (es.filterMap (MemeBoard.Exchange.drawn location)).Nodup)
    (hlength : es.length < 2 ^ 31) (hrun : Run (Exchanges float tree location) ⟨fs, memes⟩ es w) :
    ∃ b p, Run (MemeBoard.Serves float tree location) .empty es b ∧
      b.Held float tree p root w := by
  obtain ⟨p, hname, hp⟩ := FileSystem.isDirectory_eq_true hdir
  rw [FileSystem.entries, hname] at hempty
  obtain ⟨memes', hload', hheld⟩ := @held_empty F float tree p root fs hfloat hroot
    (.of_children_eq_nil hname hempty) hp hempty uninit
  obtain rfl : memes' = memes := Except.ok.inj (hload'.symm.trans hload)
  have hfresh : ∀ n ∈ es.filterMap (MemeBoard.Exchange.drawn location),
      ¬ MemeBoard.empty.store.Names n := by
    rintro n - ⟨id, m, hm, -⟩
    rw [MemeBoard.store_empty] at hm
    cases hm
  obtain ⟨b, hboard, hheld'⟩ := run_held htree hheld hfaults hplain hnodup hfresh
    ((Nat.zero_add _).trans_lt hlength) hrun
  exact ⟨b, p, hboard, hheld'⟩

/-- A meme is posted and asked for. -/
def sampleExchanges : List MemeBoard.Exchange :=
  [⟨⟨.post, "/m".toList, sampleMeme, []⟩, {}, .created, created 1⟩,
    ⟨⟨.get, "/m/1".toList, [], []⟩, {}, .ok, MemeBoard.page .ok "text/html".toList
      (displayPage "/m".toList 1
        (⟨sampleMeme, ['a'], ['b'], ['c'], 1, CInt.wrap (-1)⟩ : Meme CInt))⟩]

theorem run_serves_board_sampleExchanges :
    ∃ w b p, Run (Exchanges wholeFloat sampleTree "/m".toList) ⟨sampleDisk, ⟨['m'], 0, ∅, ∅⟩⟩
        sampleExchanges w ∧
      Run (MemeBoard.Serves wholeFloat sampleTree "/m".toList) .empty sampleExchanges b ∧
      b.Held wholeFloat sampleTree p ['m'] w := by
  have hload : MemeModule.load wholeFloat {} ⟨fun _ => 0, fun _ => 0⟩ sampleDisk ['m'] =
      .ok ⟨['m'], 0, ∅, ∅⟩ := rfl
  have hbody : Meme.Parses (sampleTree (F := CInt)) sampleMeme := ⟨_, rfl⟩
  have hcreate : MemeModule.create {} sampleMeme
        ⟨sampleDisk, (⟨['m'], 0, ∅, ∅⟩ : MemeModule CInt)⟩ =
      (some 1, ConcurrentCalls.oneMeme) := Prod.ext (by decide) rfl
  have hget : MemeModule.get wholeFloat sampleTree {} 1 ConcurrentCalls.oneMeme =
      .ok (some ⟨sampleMeme, ['a'], ['b'], ['c'], 1, CInt.wrap (-1)⟩,
        MemeModule.incrementViewCount {} 1 ConcurrentCalls.oneMeme) := rfl
  have hrun : Run (Exchanges wholeFloat sampleTree "/m".toList)
      ⟨sampleDisk, ⟨['m'], 0, ∅, ∅⟩⟩ sampleExchanges
        (MemeModule.incrementViewCount {} 1 ConcurrentCalls.oneMeme) :=
    .cons (handleRequest_post_of_some rfl rfl hbody hcreate)
      (.cons (handleRequest_get {} rfl (by decide) (by rfl : stoi ['1'] = .ok 1) hget) (.nil _))
  have htree : ¬ Meme.Parses (sampleTree (F := CInt)) [] := by
    rintro ⟨three, hthree⟩
    cases hthree
  have hdrawn : sampleExchanges.filterMap (MemeBoard.Exchange.drawn "/m".toList) = [] := by decide
  obtain ⟨b, p, hboard, hheld⟩ := run_serves_board wholeFloat_reads htree (by decide) rfl rfl hload
    (by simp [sampleExchanges]) (hdrawn ▸ fun n hn => by cases hn) (hdrawn ▸ List.nodup_nil)
    (by decide) hrun
  exact ⟨_, b, p, hrun, hboard, hheld⟩

end MemeHandler

end SocialNetworkApp
