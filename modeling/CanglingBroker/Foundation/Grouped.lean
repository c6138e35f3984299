import Mathlib

/-!
# Items handled in order and by groups

Handling an item changes the state of its place only.  So the places end in the same
states, and every item has the same outcome, whether the items are handled in order or the
places one after the other.
-/

namespace CanglingBroker
namespace Foundation
namespace Grouped

variable {Place Item Tagged Slot Out : Type}

section Handling

variable (handle : Item → Slot → Out × Slot) (items : List Item)

def handleAll : List Item → Slot → List Out × Slot
  | [], slot => ([], slot)
  | item :: rest, slot =>
    let done := handle item slot
    let later := handleAll rest done.2
    (done.1 :: later.1, later.2)

theorem length_handleAll (slot : Slot) :
    (handleAll handle items slot).1.length = items.length := by
  induction items generalizing slot with
  | nil => rfl
  | cons _ _ ih => rw [handleAll, List.length_cons, List.length_cons, ih]

theorem handleAll_pure (value : Item → Out) (items : List Item) (slot : Slot) :
    handleAll (fun item slot => (value item, slot)) items slot = (items.map value, slot) := by
  induction items with
  | nil => rfl
  | cons item _ ih =>
    rw [handleAll, ih]
    rfl

theorem handleAll_map (bare : Tagged → Item) (items : List Tagged) (slot : Slot) :
    handleAll (fun tagged => handle (bare tagged)) items slot =
      handleAll handle (items.map bare) slot := by
  induction items generalizing slot with
  | nil => rfl
  | cons _ _ ih =>
    rw [handleAll, ih]
    rfl

theorem handleAll_wrap {Wrapped : Type} (wrap : Out → Wrapped) (items : List Item) (slot : Slot) :
    handleAll (fun item slot => (wrap (handle item slot).1, (handle item slot).2)) items slot =
      ((handleAll handle items slot).1.map wrap, (handleAll handle items slot).2) := by
  induction items generalizing slot with
  | nil => rfl
  | cons _ _ ih =>
    rw [handleAll, ih]
    rfl

variable [DecidableEq Place] (place : Item → Place)

def ofPlace (target : Place) (items : List Item) : List Item :=
  items.filter fun item => decide (place item = target)

theorem map_ofPlace (bare : Tagged → Item) (target : Place) (items : List Tagged) :
    (ofPlace (fun tagged => place (bare tagged)) target items).map bare =
      ofPlace place target (items.map bare) := by
  unfold ofPlace
  rw [List.filter_map]
  rfl

def atPlace (item : Item) (slots : Place → Slot) : Out × (Place → Slot) :=
  let done := handle item (slots (place item))
  (done.1, Function.update slots (place item) done.2)

def inOrder : List Item → (Place → Slot) → List Out × (Place → Slot) :=
  handleAll (atPlace handle place)

theorem inOrder_cons (item : Item) (rest : List Item) (slots : Place → Slot) :
    inOrder handle place (item :: rest) slots =
      let done := handle item (slots (place item))
      let later := inOrder handle place rest (Function.update slots (place item) done.2)
      (done.1 :: later.1, later.2) :=
  rfl

variable {handle place}

theorem inOrder_slot (slots : Place → Slot) (target : Place) :
    (inOrder handle place items slots).2 target =
      (handleAll handle (ofPlace place target items) (slots target)).2 := by
  induction items generalizing slots with
  | nil => rfl
  | cons item _ ih =>
    rw [inOrder_cons, ih]
    by_cases here : place item = target
    · subst here
      rw [Function.update_self, ofPlace, ofPlace, List.filter_cons_of_pos (by simp)]
      rfl
    · rw [Function.update_of_ne (Ne.symm here), ofPlace, ofPlace,
        List.filter_cons_of_neg (by simpa using here)]

theorem filter_zip_inOrder (slots : Place → Slot) (target : Place) :
    ((items.zip (inOrder handle place items slots).1).filter fun entry =>
        decide (place entry.1 = target)) =
      (ofPlace place target items).zip
        (handleAll handle (ofPlace place target items) (slots target)).1 := by
  induction items generalizing slots with
  | nil => rfl
  | cons item _ ih =>
    rw [inOrder_cons, List.zip_cons_cons]
    by_cases here : place item = target
    · subst here
      rw [List.filter_cons_of_pos (by simp), ih, Function.update_self,
        ofPlace, ofPlace, List.filter_cons_of_pos (by simp)]
      rfl
    · rw [List.filter_cons_of_neg (by simpa using here), ih,
        Function.update_of_ne (Ne.symm here), ofPlace, ofPlace,
        List.filter_cons_of_neg (by simpa using here)]

end Handling

/-! ## Groups -/

/-- Places that are handled one after the other, each with the items it has, do not touch
each other. -/
theorem handleAll_places [DecidableEq Place] {visit : Place → Slot → Out × Slot}
    {places : List Place} (distinct : places.Nodup) (slots : Place → Slot) :
    handleAll (atPlace (fun target slot => visit target slot) id) places slots =
      (places.map fun target => (visit target (slots target)).1,
        fun target =>
          if target ∈ places then (visit target (slots target)).2 else slots target) := by
  induction places generalizing slots with
  | nil => simp [handleAll]
  | cons first rest ih =>
    obtain ⟨fresh, distinct⟩ := List.nodup_cons.mp distinct
    have apart : ∀ target ∈ rest, target ≠ first := fun target member same => fresh (same ▸ member)
    rw [handleAll, ih distinct]
    refine Prod.ext ?_ (funext fun target => ?_)
    · simp only [atPlace, id, List.map_cons, List.cons.injEq, true_and]
      refine List.map_congr_left fun target member => ?_
      rw [Function.update_of_ne (apart target member)]
    · simp only [atPlace, id, List.mem_cons]
      by_cases here : target = first
      · subst here
        rw [if_neg fresh, Function.update_self, if_pos (.inl rfl)]
      · rw [Function.update_of_ne here]
        simp [here]

section Groups

variable [DecidableEq Place]

/-- Taking the items place by place takes every item once. -/
theorem flatMap_filter_perm {places : List Place} (distinct : places.Nodup) (key : Item → Place) :
    ∀ {items : List Item}, (∀ item ∈ items, key item ∈ places) →
      (places.flatMap fun target => items.filter fun item => decide (key item = target)).Perm items
  | [], _ => by
    simp
  | item :: rest, covered => by
    have tail :=
      flatMap_filter_perm distinct key fun other member =>
        covered other (.tail _ member)
    obtain ⟨before, after, rfl⟩ := List.append_of_mem (covered item (.head _))
    -- Only the place of the first item has it.
    have others : ∀ target, target ≠ key item →
        ((item :: rest).filter fun other => decide (key other = target)) =
          rest.filter fun other => decide (key other = target) :=
      fun target different =>
        List.filter_cons_of_neg (by simpa using Ne.symm different)
    obtain ⟨_, nodup, apart⟩ := List.nodup_append.mp distinct
    have fresh := (List.nodup_cons.mp nodup).1
    have front : (before.flatMap fun target =>
        (item :: rest).filter fun other => decide (key other = target)) =
          before.flatMap fun target =>
            rest.filter fun other => decide (key other = target) :=
      List.flatMap_congr fun target member =>
        others target fun same => apart target member (key item) (.head _) same
    have back : (after.flatMap fun target =>
        (item :: rest).filter fun other => decide (key other = target)) =
          after.flatMap fun target =>
            rest.filter fun other => decide (key other = target) :=
      List.flatMap_congr fun target member =>
        others target fun same => fresh (same ▸ member)
    rw [List.flatMap_append, List.flatMap_cons] at tail ⊢
    rw [front, back, List.filter_cons_of_pos (by simp), List.cons_append]
    exact List.perm_middle.trans (tail.cons item)

variable {handle : Item → Slot → Out × Slot} {place : Item → Place}

theorem groups_perm {places : List Place} (distinct : places.Nodup) {items : List Item}
    (covered : ∀ item ∈ items, place item ∈ places) (slots : Place → Slot) :
    (places.flatMap fun target =>
        (ofPlace place target items).zip
          (handleAll handle (ofPlace place target items) (slots target)).1).Perm
      (items.zip (inOrder handle place items slots).1) := by
  have split :=
    flatMap_filter_perm distinct (fun entry : Item × Out => place entry.1)
      (fun entry member => covered entry.1 (List.of_mem_zip member).1 :
        ∀ entry ∈ items.zip (inOrder handle place items slots).1, place entry.1 ∈ places)
  rwa [List.flatMap_congr fun target _ => filter_zip_inOrder items slots target] at split

end Groups

/-! ## Finding outcomes by their numbers -/

section Numbers

variable {entries whole : List (Item × Out)}

theorem find?_of_nodup_map {Key : Type} [DecidableEq Key] {key : Item → Key} {items : List Item}
    {item : Item} (distinct : (items.map key).Nodup) (member : item ∈ items) :
    (items.find? fun other => decide (key other = key item)) = some item := by
  obtain ⟨found, isFound⟩ :
      ∃ found, (items.find? fun other => decide (key other = key item)) = some found :=
    Option.isSome_iff_exists.mp (List.find?_isSome.mpr ⟨item, member, by simp⟩)
  have same : key found = key item := by simpa using List.find?_some isFound
  rw [isFound, List.inj_on_of_nodup_map distinct (List.mem_of_find?_eq_some isFound) member same]

/-- Outcomes that were collected in any order are put back by the numbers of their
items. -/
theorem filterMap_find_eq (number : Item → Nat) (collected : entries.Perm whole)
    (numbered : (whole.map fun entry => number entry.1) = List.range whole.length) :
    ((List.range whole.length).filterMap fun index =>
        (entries.find? fun entry => decide (number entry.1 = index)).map Prod.snd) =
      whole.map Prod.snd := by
  have distinct : (entries.map fun entry => number entry.1).Nodup := by
    rw [(collected.map fun entry => number entry.1).nodup_iff, numbered]
    exact List.nodup_range
  rw [← numbered, List.filterMap_map, ← List.filterMap_eq_map]
  refine List.filterMap_congr fun entry member => ?_
  have found : (entries.find? fun other => decide (number other.1 = number entry.1)) = some entry :=
    find?_of_nodup_map distinct (collected.mem_iff.mpr member)
  rw [Function.comp_apply, found]
  rfl

/-- Where only the outcomes that are there are kept, an item has one exactly if one is kept
under its number. -/
theorem map_any_kept (number : Item → Nat) {outcomes : List (Item × Option Out)}
    (collected :
      entries.Perm (outcomes.filterMap fun entry => entry.2.map fun out => (entry.1, out)))
    (distinct : (outcomes.map fun entry => number entry.1).Nodup) :
    (outcomes.map fun entry => entries.any fun other => decide (number other.1 = number entry.1)) =
      outcomes.map fun entry => entry.2.isSome := by
  refine List.map_congr_left fun entry member => ?_
  rw [Bool.eq_iff_iff, List.any_eq_true, Option.isSome_iff_exists]
  constructor
  · rintro ⟨other, kept, same⟩
    obtain ⟨source, listed, isOther⟩ := List.mem_filterMap.mp (collected.mem_iff.mp kept)
    obtain ⟨out, there, rfl⟩ := Option.map_eq_some_iff.mp isOther
    have equal : source = entry :=
      List.inj_on_of_nodup_map distinct listed member (of_decide_eq_true same)
    exact ⟨out, equal ▸ there⟩
  · rintro ⟨out, there⟩
    refine ⟨(entry.1, out), collected.mem_iff.mpr ?_, decide_eq_true rfl⟩
    exact List.mem_filterMap.mpr ⟨entry, member, by rw [there]; rfl⟩

end Numbers

/-! ## Numbered batches -/

section Batches

variable [DecidableEq Place] {handle : Item → Slot → Out × Slot} {place : Item → Place}

/-- What is collected of a numbered batch, place by place. -/
def collect (handle : Item → Slot → Out × Slot) (place : Item → Place) (places : List Place)
    (items : List Item) (slots : Place → Slot) : List ((Item × Nat) × Out) :=
  places.flatMap fun target =>
    let group := ofPlace (fun item : Item × Nat => place item.1) target items.zipIdx
    group.zip (handleAll handle (group.map Prod.fst) (slots target)).1

variable {places : List Place} {items : List Item} {slots : Place → Slot}

section

variable (distinct : places.Nodup) (covered : ∀ item ∈ items, place item ∈ places)

include distinct covered

theorem collect_perm :
    (collect handle place places items slots).Perm
      (items.zipIdx.zip (inOrder handle place items slots).1) := by
  have bare : items.zipIdx.map Prod.fst = items := List.zipIdx_map_fst 0 items
  have groups : (places.flatMap fun target =>
      let group := ofPlace (fun item : Item × Nat => place item.1) target items.zipIdx
      group.zip (handleAll (fun item => handle item.1) group (slots target)).1).Perm
        (items.zipIdx.zip
          (inOrder (fun item : Item × Nat => handle item.1) (fun item => place item.1)
            items.zipIdx slots).1) :=
    groups_perm distinct
      (fun item member => covered item.1 (bare ▸ List.mem_map_of_mem member)) slots
  have whole : inOrder (fun item : Item × Nat => handle item.1) (fun item => place item.1)
      items.zipIdx slots = inOrder handle place items slots := by
    have mapped := handleAll_map (atPlace handle place) Prod.fst items.zipIdx slots
    rwa [bare] at mapped
  rw [whole] at groups
  simp only [handleAll_map handle Prod.fst] at groups
  exact groups

/-- The outcomes are put back in the order of the items. -/
theorem filterMap_find_collect :
    ((List.range items.length).filterMap fun index =>
        ((collect handle place places items slots).find? fun entry =>
          decide (entry.1.2 = index)).map Prod.snd) =
      (inOrder handle place items slots).1 := by
  have lengths : (inOrder handle place items slots).1.length = items.zipIdx.length := by
    rw [List.length_zipIdx]
    exact length_handleAll _ items slots
  have size : (items.zipIdx.zip (inOrder handle place items slots).1).length = items.length := by
    rw [List.length_zip, lengths, Nat.min_self, List.length_zipIdx]
  have firsts :
      (items.zipIdx.zip (inOrder handle place items slots).1).map Prod.fst = items.zipIdx :=
    List.map_fst_zip lengths.ge
  have numbered :
      ((items.zipIdx.zip (inOrder handle place items slots).1).map fun entry => entry.1.2) =
        List.range (items.zipIdx.zip (inOrder handle place items slots).1).length := by
    have numbers := congrArg (List.map Prod.snd) firsts
    rw [List.map_map, List.zipIdx_map_snd, ← List.range_eq_range'] at numbers
    rw [size]
    exact numbers
  have found :=
    filterMap_find_eq (fun item : Item × Nat => item.2) (collect_perm distinct covered) numbered
  rw [size, List.map_snd_zip lengths.le] at found
  exact found

theorem map_collect_perm :
    ((collect handle place places items slots).map fun entry => (entry.1.1, entry.2)).Perm
      (items.zip (inOrder handle place items slots).1) := by
  have collected : (collect handle place places items slots).Perm
      (items.zipIdx.zip (inOrder handle place items slots).1) :=
    collect_perm distinct covered
  have pairs := collected.map fun entry => (entry.1.1, entry.2)
  have bare : (items.zipIdx.zip (inOrder handle place items slots).1).map
      (fun entry => (entry.1.1, entry.2)) =
        (items.zipIdx.map Prod.fst).zip (inOrder handle place items slots).1 := by
    rw [← List.map_id (inOrder handle place items slots).1, List.zip_map, List.map_id]
    rfl
  rwa [bare, List.zipIdx_map_fst] at pairs

end

end Batches

end Grouped
end Foundation
end CanglingBroker
