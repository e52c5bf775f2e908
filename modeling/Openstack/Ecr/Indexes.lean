import Openstack.Ecr.Provider
import Openstack.Lib.Run

/-!
# Agreement of the image indexes

The images and their two indexes are written in separate steps by `insert_image`, `remove_image` and
`remove_repo_images` (`store.rs`, lines 59-137). They agree after every request whose digest is fresh.
-/
namespace Openstack.Ecr

open JsonService (firstUuid secondUuid)

/-- An image of the repository carries the tag. -/
def EcrStore.Carries (store : EcrStore) (repo tag digest : String) : Prop :=
  ∃ image, store.images[digest]? = some image ∧ image.repositoryName = repo ∧ tag ∈ image.imageTags

structure Consistent (store : EcrStore) : Prop where
  listed : ∀ repo, (store.digests repo).Nodup ∧ ∀ digest, digest ∈ store.digests repo ↔
    ∃ image, store.images[digest]? = some image ∧ image.repositoryName = repo
  tagged : ∀ repo tag digest, store.tagIndex (repo, tag) = some digest ↔ store.Carries repo tag digest
  once : ∀ repo tag digest digest', store.Carries repo tag digest → store.Carries repo tag digest' →
    digest = digest'
  housed : ∀ (digest : String) (image : Image), store.images[digest]? = some image →
    store.repositories.contains image.repositoryName = true

/-- The digest that `PutImage` draws is not in use. -/
def FreshDigest (store : EcrStore) (act : Act) : Prop :=
  act.operation = .putImage → store.images[act.digest]? = none

instance (store : EcrStore) (act : Act) : Decidable (FreshDigest store act) :=
  inferInstanceAs (Decidable (_ → _))

def Image.keeping (image : Image) (kept : String → Bool) : Image :=
  { image with imageTags := image.imageTags.filter kept }

/-- The new image does not take this tag from the image with the digest `d`. -/
def untaken (tagIndex : String × String → Option String) (repo digest : String) (tags : List String)
    (d t : String) : Bool :=
  ¬ (t ∈ tags ∧ tagIndex (repo, t) = some d ∧ d ≠ digest)

section Loops

variable {tagIndex : String × String → Option String} {repo digest : String}

theorem foldl_update_apply (value : Option String) (tags : List String) (r t : String) :
    tags.foldl (fun index tag => Function.update index (repo, tag) value) tagIndex (r, t) =
      if r = repo ∧ t ∈ tags then value else tagIndex (r, t) := by
  induction tags generalizing tagIndex with
  | nil => simp
  | cons tag rest ih =>
    rw [List.foldl_cons, ih, Function.update_apply]
    by_cases later : r = repo ∧ t ∈ rest
    · simp [later]
    · by_cases here : (r, t) = (repo, tag)
      · cases here
        simp
      · have other : ¬ (r = repo ∧ t ∈ tag :: rest) := by
          rintro ⟨rfl, member⟩
          rcases List.mem_cons.mp member with rfl | member
          · exact here rfl
          · exact later ⟨rfl, member⟩
        rw [if_neg later, if_neg here, if_neg other]

theorem setTags_apply (tags : List String) (r t : String) : setTags repo digest tags tagIndex (r, t) =
    if r = repo ∧ t ∈ tags then some digest else tagIndex (r, t) := foldl_update_apply ..

theorem clearTags_apply (tags : List String) (r t : String) : clearTags repo tags tagIndex (r, t) =
    if r = repo ∧ t ∈ tags then none else tagIndex (r, t) := foldl_update_apply ..

theorem getElem?_stealTag (images : StrMap Image) (tag d : String) :
    (stealTag tagIndex repo digest images tag)[d]? = images[d]?.map fun image =>
      if tagIndex (repo, tag) = some d ∧ d ≠ digest then image.dropTag tag else image := by
  rw [stealTag]
  cases owner : tagIndex (repo, tag) with
  | none => simp
  | some oldDigest =>
    dsimp only
    split
    · next same =>
      subst same
      have kept : ¬ (some oldDigest = some d ∧ d ≠ oldDigest) := by
        rintro ⟨here, other⟩
        exact other (Option.some.inj here).symm
      simp only [if_neg kept, Option.map_id']
    · next other =>
      cases stored : images[oldDigest]? with
      | none =>
        by_cases here : oldDigest = d
        · simp [← here, stored]
        · simp [here]
      | some oldImage =>
        dsimp only
        rw [StrMap.getElem?_insert]
        by_cases here : oldDigest = d
        · subst here
          simp [stored, other]
        · simp [here]

/-- The stealing loop takes from every image the given tags that are filed under its digest. -/
theorem getElem?_stealTags (tags : List String) (images : StrMap Image) (d : String) :
    (tags.foldl (stealTag tagIndex repo digest) images)[d]? =
      images[d]?.map (·.keeping (untaken tagIndex repo digest tags d)) := by
  induction tags generalizing images with
  | nil =>
    have all : untaken tagIndex repo digest [] d = fun _ => true := by
      funext t
      simp [untaken]
    simp [all, Image.keeping]
  | cons tag rest ih =>
    rw [List.foldl_cons, ih, getElem?_stealTag, Option.map_map]
    congr 1
    funext image
    dsimp only [Function.comp_apply, Image.keeping]
    by_cases owner : tagIndex (repo, tag) = some d ∧ d ≠ digest
    · rw [if_pos owner, Image.dropTag, List.filter_filter]
      congr 1
      refine List.filter_congr fun t _ => ?_
      by_cases same : t = tag
      · simp [untaken, same, owner]
      · simp [untaken, same]
    · rw [if_neg owner]
      congr 1
      refine List.filter_congr fun t _ => ?_
      by_cases same : t = tag
      · subst same
        simp [untaken, owner]
      · simp [untaken, same]

theorem getElem?_unlist (repoIndex : StrMap (List String)) (r : String) :
    ((unlist repoIndex repo digest)[r]?).getD [] =
      if r = repo then ((repoIndex[repo]?).getD []).filter (· ≠ digest) else (repoIndex[r]?).getD [] := by
  rw [unlist]
  cases stored : repoIndex[repo]? with
  | none =>
    by_cases here : r = repo
    · simp [here, stored]
    · simp [here]
  | some digests =>
    dsimp only
    split
    · next empty =>
      rw [StrMap.getElem?_erase]
      by_cases here : r = repo
      · rw [if_pos here, if_pos here.symm]
        exact empty.symm
      · simp [here, Ne.symm here]
    · rw [StrMap.getElem?_insert]
      by_cases here : r = repo
      · simp [here]
      · simp [here, Ne.symm here]

/-- The loop of `remove_repo_images` takes the listed images and their tags. -/
theorem foldl_dropImage (digests : List String) (store : EcrStore) :
    let after := digests.foldl (EcrStore.dropImage repo) store
    after.repositories = store.repositories ∧ after.repoIndex = store.repoIndex ∧
      (∀ d : String, after.images[d]? = if d ∈ digests then none else store.images[d]?) ∧
      ∀ r t, after.tagIndex (r, t) =
        if r = repo ∧ ∃ d ∈ digests, ∃ image, store.images[d]? = some image ∧ t ∈ image.imageTags then none
        else store.tagIndex (r, t) := by
  induction digests generalizing store with
  | nil => simp
  | cons digest rest ih =>
    rw [List.foldl_cons]
    cases stored : store.images[digest]? with
    | none =>
      have same : store.dropImage repo digest = store := by rw [EcrStore.dropImage, stored]
      rw [same]
      obtain ⟨repositories, repoIndex, images, tags⟩ := ih store
      refine ⟨repositories, repoIndex, fun d => ?_, fun r t => ?_⟩
      · rw [images]
        by_cases here : d = digest
        · simp [here, stored]
        · simp [here]
      · rw [tags]
        simp [stored]
    | some image =>
      obtain ⟨repositories, repoIndex, images, tags⟩ := ih (store.dropImage repo digest)
      have dropped (d : String) : (store.dropImage repo digest).images[d]? =
          if digest = d then none else store.images[d]? := by
        rw [EcrStore.dropImage, stored]
        exact StrMap.getElem?_erase ..
      have cleared (r t : String) : (store.dropImage repo digest).tagIndex (r, t) =
          if r = repo ∧ t ∈ image.imageTags then none else store.tagIndex (r, t) := by
        rw [EcrStore.dropImage, stored]
        exact clearTags_apply ..
      have first : (store.dropImage repo digest).repositories = store.repositories ∧
          (store.dropImage repo digest).repoIndex = store.repoIndex := by
        rw [EcrStore.dropImage, stored]
        exact ⟨rfl, rfl⟩
      refine ⟨repositories.trans first.1, repoIndex.trans first.2, fun d => ?_, fun r t => ?_⟩
      · rw [images, dropped]
        by_cases here : digest = d
        · simp [here]
        · simp [here, Ne.symm here]
      · rw [tags, cleared]
        simp only [dropped]
        by_cases same : r = repo
        · by_cases own : t ∈ image.imageTags
          · simp [same, own, stored]
          · have only : (∃ d ∈ digest :: rest, ∃ image, store.images[d]? = some image ∧
                t ∈ image.imageTags) ↔ ∃ d ∈ rest, ∃ image,
                  (if digest = d then none else store.images[d]?) = some image ∧ t ∈ image.imageTags := by
              constructor
              · rintro ⟨d, member, other, there, carried⟩
                by_cases here : digest = d
                · subst here
                  cases stored.symm.trans there
                  exact absurd carried own
                · refine ⟨d, ?_, other, by rw [if_neg here, there], carried⟩
                  exact (List.mem_cons.mp member).resolve_left (Ne.symm here)
              · rintro ⟨d, member, other, there, carried⟩
                split at there
                · cases there
                · exact ⟨d, List.mem_cons_of_mem _ member, other, there, carried⟩
            simp only [only, own, and_false, if_false]
        · simp [same]

end Loops

section Steps

variable {store : EcrStore} {digest : String} {image : Image}

theorem Consistent.insertImage (inv : Consistent store) (fresh : store.images[digest]? = none)
    (housed : store.repositories.contains image.repositoryName = true) :
    Consistent (store.insertImage digest image) := by
  have images (d : String) : (store.insertImage digest image).images[d]? =
      if digest = d then some image else store.images[d]?.map
        (·.keeping (untaken store.tagIndex image.repositoryName digest image.imageTags d)) := by
    rw [EcrStore.insertImage]
    dsimp only
    rw [StrMap.getElem?_insert, getElem?_stealTags]
  have tagIndex (r t : String) : (store.insertImage digest image).tagIndex (r, t) =
      if r = image.repositoryName ∧ t ∈ image.imageTags then some digest else store.tagIndex (r, t) :=
    setTags_apply ..
  have absent (r : String) : digest ∉ store.digests r := by
    intro member
    obtain ⟨old, there, -⟩ := ((inv.listed r).2 digest).mp member
    rw [fresh] at there
    cases there
  have digests (r : String) : (store.insertImage digest image).digests r =
      if r = image.repositoryName then store.digests r ++ [digest] else store.digests r := by
    rw [EcrStore.insertImage, EcrStore.digests]
    dsimp only
    rw [StrMap.getElem?_insert, if_neg (absent _)]
    by_cases here : r = image.repositoryName
    · rw [if_pos here, if_pos here.symm, Option.getD_some, here]
    · rw [if_neg here, if_neg (Ne.symm here), EcrStore.digests]
  -- an old image keeps its repository, and the tags that the new image does not take
  have carries (r t d : String) : (store.insertImage digest image).Carries r t d ↔
      (d = digest ∧ r = image.repositoryName ∧ t ∈ image.imageTags) ∨
        (¬ (r = image.repositoryName ∧ t ∈ image.imageTags) ∧ store.Carries r t d) := by
    constructor
    · rintro ⟨carrier, there, repo, member⟩
      rw [images] at there
      split at there
      · next here =>
        cases there
        exact Or.inl ⟨here.symm, repo.symm, member⟩
      · next other =>
        obtain ⟨old, was, rfl⟩ := Option.map_eq_some_iff.mp there
        obtain ⟨had, kept⟩ := List.mem_filter.mp member
        have carried : store.Carries r t d := ⟨old, was, repo, had⟩
        refine Or.inr ⟨fun ⟨same, taken⟩ => of_decide_eq_true kept ?_, carried⟩
        rw [← same]
        exact ⟨taken, (inv.tagged r t d).mpr carried, Ne.symm other⟩
    · rintro (⟨rfl, rfl, member⟩ | ⟨untaken, old, was, repo, had⟩)
      · exact ⟨image, by rw [images, if_pos rfl], rfl, member⟩
      · have other : digest ≠ d := by
          rintro rfl
          rw [fresh] at was
          cases was
        refine ⟨old.keeping _, by rw [images, if_neg other, was, Option.map_some], repo, ?_⟩
        refine List.mem_filter.mpr ⟨had, decide_eq_true ?_⟩
        rintro ⟨taken, filed, -⟩
        obtain ⟨owner, there, same, -⟩ := (inv.tagged _ _ _).mp filed
        cases was.symm.trans there
        exact untaken ⟨repo.symm.trans same, taken⟩
  have tagged (r t d : String) : (store.insertImage digest image).tagIndex (r, t) = some d ↔
      (store.insertImage digest image).Carries r t d := by
    rw [carries, tagIndex]
    split
    · next new => simp [new, eq_comm]
    · next old => simp [old, inv.tagged]
  refine ⟨fun r => ⟨?_, fun d => ?_⟩, tagged, fun r t d d' first second => ?_, fun d other there => ?_⟩
  · rw [digests]
    split
    · exact List.nodup_append.mpr ⟨(inv.listed r).1, by simp, by
        rintro a member b last rfl
        rw [List.mem_singleton.mp last] at member
        exact absent r member⟩
    · exact (inv.listed r).1
  · rw [digests]
    constructor
    · intro member
      have cases_of : (digest = d ∧ r = image.repositoryName) ∨ d ∈ store.digests r := by
        split at member
        · next here =>
          rcases List.mem_append.mp member with old | new
          · exact Or.inr old
          · exact Or.inl ⟨(List.mem_singleton.mp new).symm, here⟩
        · exact Or.inr member
      rcases cases_of with ⟨rfl, rfl⟩ | old
      · exact ⟨image, by rw [images, if_pos rfl], rfl⟩
      · obtain ⟨found, was, repo⟩ := ((inv.listed r).2 d).mp old
        have other : digest ≠ d := by
          rintro rfl
          exact absent r old
        exact ⟨found.keeping _, by rw [images, if_neg other, was, Option.map_some], repo⟩
    · rintro ⟨found, there, repo⟩
      rw [images] at there
      split at there
      · next here =>
        cases there
        rw [if_pos repo.symm, here]
        exact List.mem_append_right _ (List.mem_singleton_self d)
      · obtain ⟨old, was, rfl⟩ := Option.map_eq_some_iff.mp there
        have listed := ((inv.listed r).2 d).mpr ⟨old, was, repo⟩
        split
        · exact List.mem_append_left _ listed
        · exact listed
  · rw [← tagged] at first second
    exact Option.some.inj (first.symm.trans second)
  · rw [images] at there
    split at there
    · cases there
      exact housed
    · obtain ⟨old, was, rfl⟩ := Option.map_eq_some_iff.mp there
      exact inv.housed d old was

theorem Consistent.removeImage (inv : Consistent store) : Consistent (store.removeImage digest).2 := by
  rw [EcrStore.removeImage]
  cases stored : store.images[digest]? with
  | none => exact inv
  | some image =>
    dsimp only
    generalize made : ({ store with
      images := store.images.erase digest
      repoIndex := unlist store.repoIndex image.repositoryName digest
      tagIndex := clearTags image.repositoryName image.imageTags store.tagIndex } : EcrStore) = after
    have images (d : String) : after.images[d]? = if digest = d then none else store.images[d]? := by
      rw [← made]
      exact StrMap.getElem?_erase ..
    have tagIndex (r t : String) : after.tagIndex (r, t) =
        if r = image.repositoryName ∧ t ∈ image.imageTags then none else store.tagIndex (r, t) := by
      rw [← made]
      exact clearTags_apply ..
    have digests (r : String) : after.digests r =
        if r = image.repositoryName then (store.digests r).filter (· ≠ digest) else store.digests r := by
      rw [← made, EcrStore.digests]
      dsimp only
      rw [getElem?_unlist]
      by_cases here : r = image.repositoryName
      · rw [if_pos here, if_pos here, EcrStore.digests, here]
      · rw [if_neg here, if_neg here, EcrStore.digests]
    have stays (d : String) (found : Image) :
        after.images[d]? = some found ↔ d ≠ digest ∧ store.images[d]? = some found := by
      rw [images]
      split
      · next here => simp [here]
      · next other => simp [Ne.symm other]
    have carries (r t d : String) : after.Carries r t d ↔ d ≠ digest ∧ store.Carries r t d := by
      simp only [EcrStore.Carries, stays]
      constructor
      · rintro ⟨found, ⟨other, there⟩, rest⟩
        exact ⟨other, found, there, rest⟩
      · rintro ⟨other, found, there, rest⟩
        exact ⟨found, ⟨other, there⟩, rest⟩
    have tagged (r t d : String) : after.tagIndex (r, t) = some d ↔ after.Carries r t d := by
      rw [carries, tagIndex]
      constructor
      · intro filed
        split at filed
        · cases filed
        · next kept =>
          have carried := (inv.tagged r t d).mp filed
          refine ⟨?_, carried⟩
          rintro rfl
          obtain ⟨found, there, repo, member⟩ := carried
          cases stored.symm.trans there
          exact kept ⟨repo.symm, member⟩
      · rintro ⟨other, carried⟩
        rw [if_neg, inv.tagged]
        · exact carried
        · rintro ⟨rfl, member⟩
          exact other (inv.once _ _ d digest carried ⟨image, stored, rfl, member⟩)
    refine ⟨fun r => ⟨?_, fun d => ?_⟩, tagged, fun r t d d' first second => ?_, fun d found there => ?_⟩
    · rw [digests]
      split
      · exact (inv.listed r).1.filter _
      · exact (inv.listed r).1
    · rw [digests]
      simp only [stays]
      constructor
      · intro member
        have both : d ≠ digest ∧ d ∈ store.digests r := by
          split at member
          · obtain ⟨listed, other⟩ := List.mem_filter.mp member
            exact ⟨of_decide_eq_true other, listed⟩
          · next elsewhere =>
            refine ⟨?_, member⟩
            rintro rfl
            obtain ⟨found, there, repo⟩ := ((inv.listed r).2 d).mp member
            cases stored.symm.trans there
            exact elsewhere repo.symm
        obtain ⟨found, there, repo⟩ := ((inv.listed r).2 d).mp both.2
        exact ⟨found, ⟨both.1, there⟩, repo⟩
      · rintro ⟨found, ⟨other, there⟩, repo⟩
        have listed := ((inv.listed r).2 d).mpr ⟨found, there, repo⟩
        split
        · exact List.mem_filter.mpr ⟨listed, decide_eq_true other⟩
        · exact listed
    · rw [← tagged] at first second
      exact Option.some.inj (first.symm.trans second)
    · have same : after.repositories = store.repositories := by rw [← made]
      rw [same]
      exact inv.housed d found ((stays d found).mp there).2

/-- What is left after the images of a repository are removed. -/
theorem removeRepoImages_spec (store : EcrStore) (name : String) :
    let after := store.removeRepoImages name
    after.repositories = store.repositories ∧
      (∀ r, after.digests r = if r = name then [] else store.digests r) ∧
      (∀ d : String, after.images[d]? = if d ∈ store.digests name then none else store.images[d]?) ∧
      ∀ r t, after.tagIndex (r, t) = if r = name ∧ ∃ d ∈ store.digests name, ∃ image,
        store.images[d]? = some image ∧ t ∈ image.imageTags then none else store.tagIndex (r, t) := by
  rw [EcrStore.removeRepoImages]
  cases stored : store.repoIndex[name]? with
  | none =>
    have empty : store.digests name = [] := by rw [EcrStore.digests, stored, Option.getD_none]
    dsimp only
    refine ⟨rfl, fun r => ?_, fun d => by simp [empty], fun r t => by simp [empty]⟩
    split
    · next here => rw [here, empty]
    · rfl
  | some digests =>
    have all : store.digests name = digests := by rw [EcrStore.digests, stored, Option.getD_some]
    obtain ⟨repositories, repoIndex, images, tags⟩ := @foldl_dropImage name digests
      { store with repoIndex := store.repoIndex.erase name }
    rw [all]
    refine ⟨repositories, fun r => ?_, images, tags⟩
    rw [EcrStore.digests, repoIndex]
    dsimp only
    rw [StrMap.getElem?_erase]
    by_cases here : r = name
    · simp [here]
    · rw [if_neg here, if_neg (Ne.symm here), EcrStore.digests]

theorem Consistent.removeRepository (inv : Consistent store) (name : String) :
    Consistent ({ store with repositories := store.repositories.erase name }.removeRepoImages name) := by
  obtain ⟨repositories, digests, images, tagIndex⟩ := removeRepoImages_spec
    { store with repositories := store.repositories.erase name } name
  generalize EcrStore.removeRepoImages _ name = after at repositories digests images tagIndex ⊢
  have stays (d : String) (found : Image) : after.images[d]? = some found ↔
      store.images[d]? = some found ∧ found.repositoryName ≠ name := by
    rw [images]
    have listed := (inv.listed name).2 d
    split
    · next member =>
      obtain ⟨found', there, repo⟩ := listed.mp member
      refine iff_of_false (by simp) ?_
      rintro ⟨there', other⟩
      cases there.symm.trans there'
      exact other repo
    · next absent =>
      refine ⟨fun there => ⟨there, fun repo => absent (listed.mpr ⟨found, there, repo⟩)⟩, And.left⟩
  have carries (r t d : String) : after.Carries r t d ↔ r ≠ name ∧ store.Carries r t d := by
    simp only [EcrStore.Carries, stays]
    constructor
    · rintro ⟨found, ⟨there, other⟩, rfl, member⟩
      exact ⟨other, found, there, rfl, member⟩
    · rintro ⟨other, found, there, rfl, member⟩
      exact ⟨found, ⟨there, other⟩, rfl, member⟩
  have tagged (r t d : String) : after.tagIndex (r, t) = some d ↔ after.Carries r t d := by
    rw [carries, tagIndex, ← inv.tagged]
    by_cases here : r = name
    · subst here
      refine iff_of_false ?_ (by simp)
      intro filed
      split at filed
      · cases filed
      · next kept =>
        obtain ⟨found, there, repo, member⟩ := (inv.tagged r t d).mp filed
        exact kept ⟨rfl, d, ((inv.listed r).2 d).mpr ⟨found, there, repo⟩, found, there, member⟩
    · simp [here]
  refine ⟨fun r => ⟨?_, fun d => ?_⟩, tagged, fun r t d d' first second => ?_, fun d found there => ?_⟩
  · rw [digests]
    split
    · exact List.nodup_nil
    · exact (inv.listed r).1
  · rw [digests]
    simp only [stays]
    by_cases here : r = name
    · subst here
      rw [if_pos rfl]
      refine iff_of_false List.not_mem_nil ?_
      rintro ⟨found, ⟨-, other⟩, repo⟩
      exact other repo
    · rw [if_neg here]
      refine ((inv.listed r).2 d).trans ⟨?_, ?_⟩
      · rintro ⟨found, there, rfl⟩
        exact ⟨found, ⟨there, here⟩, rfl⟩
      · rintro ⟨found, ⟨there, -⟩, repo⟩
        exact ⟨found, there, repo⟩
  · rw [← tagged] at first second
    exact Option.some.inj (first.symm.trans second)
  · obtain ⟨was, other⟩ := (stays d found).mp there
    have housed := inv.housed d found was
    rw [repositories, Std.ExtTreeMap.contains_erase, Bool.and_eq_true]
    exact ⟨by simpa using Ne.symm other, housed⟩

theorem Consistent.addRepository (inv : Consistent store) (name : String) (repo : Repository) :
    Consistent { store with repositories := store.repositories.insert name repo } := by
  refine ⟨inv.listed, inv.tagged, inv.once, fun d found there => ?_⟩
  rw [Std.ExtTreeMap.contains_insert, inv.housed d found there, Bool.or_true]

theorem Consistent.deleteEntries (inv : Consistent store) (repo : String) (ids deleted failures : List Json) :
    Consistent (ids.foldl (deleteEntry repo) (deleted, failures, store)).2.2 := by
  induction ids generalizing store deleted failures with
  | nil => exact inv
  | cons id rest ih =>
    rw [List.foldl_cons, deleteEntry]
    split
    · exact ih inv.removeImage _ _
    · exact ih inv _ _

theorem Consistent.step (inv : Consistent store) (tenant : Tenant) {act : Act}
    (fresh : FreshDigest store act) : Consistent (step tenant store act) := by
  rw [Ecr.step, dispatch]
  cases operation : act.operation with
  | createRepository =>
    dsimp only
    rw [createRepository]
    repeat' split
    · exact inv
    · exact inv
    · exact inv.addRepository _ _
  | deleteRepository =>
    dsimp only
    rw [deleteRepository]
    repeat' split
    · exact inv
    · exact inv
    · exact inv.removeRepository _
  | putImage =>
    dsimp only
    rw [putImage]
    repeat' split
    · exact inv
    · next exists_ => exact inv.insertImage (fresh operation) exists_
    · exact inv
  | batchDeleteImage =>
    dsimp only
    rw [batchDeleteImage]
    repeat' split
    · exact inv
    · exact inv.deleteEntries _ _ _ _
    · exact inv

theorem consistent_empty : Consistent {} := by
  refine ⟨fun r => ⟨?_, fun d => ?_⟩, fun r t d => ?_, fun r t d d' first => ?_, fun d found there => ?_⟩
  · simp [EcrStore.digests]
  · simp [EcrStore.digests]
  · simp [EcrStore.Carries]
  · simp [EcrStore.Carries] at first
  · simp at there

end Steps

/-- The indexes agree with the images in every state of every run whose digests are fresh. -/
theorem indexes_consistent (tenant : Tenant) (acts : List Act)
    (fresh : Run.AllSteps (step tenant) FreshDigest {} acts) :
    Run.AllStates (step tenant) Consistent {} acts := by
  have preserved (store : EcrStore) (act : Act) (inv : Consistent store) (digest : FreshDigest store act) :
      Consistent (step tenant store act) := inv.step tenant digest
  exact Run.allStates_of_allSteps preserved _ acts consistent_empty fresh

section Example

def appActs : List Act := [
  ⟨.createRepository, .obj [("repositoryName", .str "app")], 1700000000, firstUuid⟩,
  ⟨.putImage, .obj [("imageTag", .str "latest"), ("repositoryName", .str "app")], 1700000001, firstUuid⟩,
  ⟨.putImage, .obj [("imageTag", .str "latest"), ("repositoryName", .str "app")], 1700000002, secondUuid⟩,
  ⟨.batchDeleteImage, .obj [("imageIds", .arr [.obj [("imageTag", .str "latest")]]),
    ("repositoryName", .str "app")], 1700000003, secondUuid⟩]

/-- The tag moves to the second image and goes with it. -/
theorem indexes_consistent_app :
    Run.AllStates (step ⟨"000000000000", "us-east-1"⟩) Consistent {} appActs :=
  indexes_consistent ⟨"000000000000", "us-east-1"⟩ appActs (by decide +kernel)

end Example

end Openstack.Ecr
