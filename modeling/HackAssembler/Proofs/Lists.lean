import Mathlib.Data.List.Basic
import Mathlib.Data.List.Forall2
import Mathlib.Data.List.Induction
import Mathlib.Data.List.Infix
import Mathlib.Data.List.Nodup

/-!
# Lists

Facts about lists that the proofs share: lists of pairs with different keys, lists whose elements
are read together with those in front of them, lists that are read up to the first error, and lists
that are sorted by a key.
-/

namespace HackAssembler

/-- In a list of pairs with different keys, looking a key up finds the pair that holds it. -/
theorem lookup_eq_some_iff_mem {α β : Type} [BEq α] [LawfulBEq α] {l : List (α × β)}
    (hl : (l.map Prod.fst).Nodup) {key : α} {value : β} :
    l.lookup key = some value ↔ (key, value) ∈ l := by
  induction l with
  | nil => simp
  | cons entry l ih =>
    obtain ⟨k, v⟩ := entry
    rw [List.map_cons, List.nodup_cons] at hl
    by_cases hk : key = k
    · subst hk
      have hmem : (key, value) ∉ l := fun h => hl.1 (List.mem_map.2 ⟨_, h, rfl⟩)
      simp [hmem, eq_comm]
    · have hb : (key == k) = false := by simpa using hk
      simp [List.lookup_cons, hb, hk, ih hl.2]

/-- Looking a key up finds nothing when no pair has it. -/
theorem lookup_eq_none_iff_not_mem {α β : Type} [BEq α] [LawfulBEq α] {l : List (α × β)} {key : α} :
    l.lookup key = none ↔ key ∉ l.map Prod.fst := by
  rw [List.lookup_eq_none_iff, List.mem_map]
  constructor
  · rintro h ⟨entry, hentry, rfl⟩
    simpa using h entry hentry
  · intro h entry hentry
    have hne : key ≠ entry.1 := fun heq => h ⟨entry, hentry, heq.symm⟩
    simpa using hne

/-- In a list of pairs with different values, a value tells its key. -/
theorem mem_iff_eq_of_nodup_values {α β : Type} {l : List (α × β)} (hl : (l.map Prod.snd).Nodup)
    {key other : α} {value : β} (h : (key, value) ∈ l) : (other, value) ∈ l ↔ other = key := by
  constructor
  · intro hother
    exact congrArg Prod.fst (List.inj_on_of_nodup_map hl hother h rfl)
  · rintro rfl
    exact h

/-- Without the pairs of one key the other keys are found as before. -/
theorem lookup_filter_of_ne {α β : Type} [BEq α] [LawfulBEq α] [DecidableEq α] {key dropped : α}
    (h : key ≠ dropped) (l : List (α × β)) :
    (l.filter (·.1 ≠ dropped)).lookup key = l.lookup key := by
  induction l with
  | nil => rfl
  | cons entry l ih =>
    by_cases hentry : entry.1 = dropped
    · have hkey : (key == entry.1) = false := by simpa [hentry] using h
      rw [List.filter_cons_of_neg (by simpa using hentry), ih, List.lookup_cons, hkey]
    · rw [List.filter_cons_of_pos (by simpa using hentry), List.lookup_cons, List.lookup_cons, ih]

/-- What the elements of a list give, each read together with those in front of it. -/
def inContext {α β : Type} (f : List α → α → Option β) (l : List α) : List β :=
  l.zipIdx.filterMap fun (a, i) => f (l.take i) a

section InContext
variable {α β : Type} (f : List α → α → Option β)

@[simp] theorem inContext_nil : inContext f [] = [] := rfl

@[simp] theorem inContext_concat (l : List α) (a : α) :
    inContext f (l ++ [a]) = inContext f l ++ (f l a).toList := by
  have front : (l.zipIdx.filterMap fun (x, i) => f ((l ++ [a]).take i) x) = inContext f l := by
    apply List.filterMap_congr
    rintro ⟨x, i⟩ hx
    have hi : i < l.length := by simpa using List.snd_lt_of_mem_zipIdx hx
    simp only [List.take_append_of_le_length (Nat.le_of_lt hi)]
  rw [inContext, List.zipIdx_append, List.filterMap_append, front]
  cases h : f l a <;> simp [h]

theorem inContext_concat_none {l : List α} {a : α} (h : f l a = none) :
    inContext f (l ++ [a]) = inContext f l := by simp [h]

/-- What a list gives, taken apart at any place. -/
theorem inContext_append (l r : List α) :
    inContext f (l ++ r) = inContext f l ++ inContext (fun earlier a => f (l ++ earlier) a) r := by
  induction r using List.reverseRecOn with
  | nil => simp
  | append_singleton r a ih =>
    rw [← List.append_assoc, inContext_concat, ih, inContext_concat, List.append_assoc]

/-- What a list gives comes from one of its elements. -/
theorem mem_inContext {l : List α} {b : β} : b ∈ inContext f l ↔
    ∃ earlier a later, l = earlier ++ a :: later ∧ f earlier a = some b := by
  induction l using List.reverseRecOn with
  | nil => simp
  | append_singleton l x ih =>
    rw [inContext_concat, List.mem_append, ih, Option.mem_toList]
    constructor
    · rintro (⟨earlier, a, later, rfl, h⟩ | h)
      · exact ⟨earlier, a, later ++ [x], by simp, h⟩
      · exact ⟨l, x, [], rfl, h⟩
    · rintro ⟨earlier, a, later, hl, h⟩
      rcases List.eq_nil_or_concat later with rfl | ⟨front, last, rfl⟩
      · obtain ⟨rfl, rfl⟩ := List.append_inj' hl rfl |>.imp id List.singleton_inj.1
        exact .inr h
      · have hsplit : l ++ [x] = (earlier ++ a :: front) ++ [last] := by simpa using hl
        obtain ⟨rfl, -⟩ := List.append_inj' hsplit rfl
        exact .inl ⟨earlier, a, front, rfl, h⟩

/-- More elements add to what a list gives at the end. -/
theorem isPrefix_inContext (l r : List α) : inContext f l <+: inContext f (l ++ r) := by
  induction r using List.reverseRecOn with
  | nil => simp
  | append_singleton r a ih =>
    rw [← List.append_assoc, inContext_concat]
    exact ih.trans (List.prefix_append _ _)

/-- What a list gives depends only on its elements where they stand. -/
theorem inContext_congr {g : List α → α → Option β} {l : List α}
    (h : ∀ earlier a later, l = earlier ++ a :: later → f earlier a = g earlier a) :
    inContext f l = inContext g l := by
  induction l using List.reverseRecOn with
  | nil => rfl
  | append_singleton l x ih =>
    have hfront : inContext f l = inContext g l := by
      apply ih
      rintro earlier a later rfl
      exact h earlier a (later ++ [x]) (by simp)
    rw [inContext_concat, inContext_concat, hfront, h l x [] rfl]

/-- One more element in the middle adds what it gives itself, if those behind it do not mind. -/
theorem inContext_insert {l r : List α} {a : α}
    (h : ∀ earlier x later, r = earlier ++ x :: later →
      f (l ++ a :: earlier) x = f (l ++ earlier) x) :
    ∃ rest, inContext f (l ++ r) = inContext f l ++ rest ∧
      inContext f (l ++ a :: r) = inContext f l ++ (f l a).toList ++ rest := by
  refine ⟨inContext (fun earlier x => f (l ++ earlier) x) r, inContext_append f l r, ?_⟩
  have hrest : inContext (fun earlier x => f (l ++ [a] ++ earlier) x) r =
      inContext (fun earlier x => f (l ++ earlier) x) r := by
    apply inContext_congr
    intro earlier x later hr
    simpa using h earlier x later hr
  rw [List.append_cons, inContext_append, inContext_concat, hrest]

/-- Elements that give nothing and that no other element looks at can be left out. -/
theorem inContext_filter {p : α → Bool} (hnone : ∀ l a, p a = false → f l a = none)
    (hfilter : ∀ l a, f (l.filter p) a = f l a) (l : List α) :
    inContext f (l.filter p) = inContext f l := by
  induction l using List.reverseRecOn with
  | nil => rfl
  | append_singleton l a ih =>
    rw [List.filter_append, inContext_concat]
    cases hp : p a with
    | false =>
      have hout : [a].filter p = [] := by simp [hp]
      rw [hout, hnone l a hp, List.append_nil, ih]
      simp
    | true =>
      have hin : [a].filter p = [a] := by simp [hp]
      rw [hin, inContext_concat, ih, hfilter]

/-- Where the elements in front make no difference, they need not be looked at. -/
theorem filterMap_eq_inContext (f : α → Option β) (l : List α) :
    l.filterMap f = inContext (fun _ a => f a) l := by
  induction l using List.reverseRecOn with
  | nil => rfl
  | append_singleton l x ih =>
    rw [List.filterMap_append, inContext_concat, ih]
    cases h : f x <;> simp [h]

/-- What one rule gives, and then what another rule gives where the first gives nothing, is up to
order what both give together. -/
theorem inContext_append_perm (g : List α → α → Option β) (l : List α) :
    (inContext f l ++ inContext (fun e a => if (f e a).isSome then none else g e a) l).Perm
      (inContext (fun e a => (f e a).or (g e a)) l) := by
  induction l using List.reverseRecOn with
  | nil => simp
  | append_singleton l x ih =>
    rw [inContext_concat, inContext_concat, inContext_concat]
    cases h : f l x with
    | none =>
      rw [Option.toList_none, List.append_nil, ← List.append_assoc]
      exact ih.append_right _
    | some b =>
      have hswap := (List.perm_append_comm_assoc (inContext f l) [b]
        (inContext (fun e a => if (f e a).isSome then none else g e a) l)).trans
          (List.perm_append_comm)
      simpa using hswap.trans (ih.append_right [b])

/-- What a list gives stands in the order of its elements. -/
theorem pairwise_inContext {r : α → α → Prop} {s : β → β → Prop} {l : List α} (hl : l.Pairwise r)
    (h : ∀ e a e' a' b b', f e a = some b → f e' a' = some b' → r a a' → s b b') :
    (inContext f l).Pairwise s := by
  have hindexed : l.zipIdx.Pairwise fun x y => r x.1 y.1 := by
    rwa [← List.pairwise_map, List.zipIdx_map_fst]
  rw [inContext, List.pairwise_filterMap]
  refine hindexed.imp ?_
  intro x y hxy b hb b' hb'
  exact h _ _ _ _ _ _ hb hb' hxy

end InContext

/-- Where elements are told apart by a key, an element stands at one place only. -/
theorem eq_of_append_cons_eq {α κ : Type} {key : α → κ} {earlier later earlier' later' : List α}
    {a a' : α} (hnodup : ((earlier ++ a :: later).map key).Nodup)
    (h : earlier ++ a :: later = earlier' ++ a' :: later') (hkey : key a = key a') :
    earlier = earlier' ∧ a = a' := by
  have hmem : a' ∈ earlier ++ a :: later := by simp [h]
  obtain rfl : a = a' := List.inj_on_of_nodup_map hnodup (by simp) hmem hkey
  have hsplit := hnodup.of_map
  rw [List.nodup_append, List.nodup_cons] at hsplit
  have hearlier : a ∉ earlier := fun ha => hsplit.2.2 a ha a (by simp) rfl
  have heq := (List.append_cons_inj_of_notMem hearlier hsplit.2.1.1).1 h
  exact ⟨heq.1, rfl⟩

/-- An element at the end counts if it has not been there before. -/
theorem eraseDups_concat {α : Type} [DecidableEq α] (l : List α) (a : α) :
    (l ++ [a]).eraseDups = l.eraseDups ++ if a ∈ l then [] else [a] := by
  rw [List.eraseDups_append]
  by_cases h : a ∈ l <;> simp [List.removeAll, List.eraseDups_cons, h]

/-- In a list without repetition an element is found where it stands. -/
theorem idxOf?_of_getElem? {α : Type} [BEq α] [LawfulBEq α] {l : List α} (hl : l.Nodup) {a : α}
    {k : Nat} (h : l[k]? = some a) : l.idxOf? a = some k := by
  obtain ⟨hk, rfl⟩ := List.getElem?_eq_some_iff.1 h
  rw [List.idxOf?, List.findIdx?_eq_some_iff_getElem]
  refine ⟨hk, by simp, ?_⟩
  intro j hj heq
  rw [beq_iff_eq, hl.getElem_inj_iff] at heq
  omega

/-- What two lists have in common place by place, each element of the first has in common with some
element of the second. -/
theorem exists_of_mem_forall₂ {α β : Type} {R : α → β → Prop} {l : List α} {r : List β}
    (h : List.Forall₂ R l r) {a : α} (ha : a ∈ l) : ∃ b ∈ r, R a b := by
  induction h with
  | nil => simp at ha
  | cons hhead _ ih =>
    rcases List.mem_cons.1 ha with rfl | ha
    · exact ⟨_, List.mem_cons_self, hhead⟩
    · obtain ⟨b, hb, hab⟩ := ih ha
      exact ⟨b, List.mem_cons_of_mem _ hb, hab⟩

section MapM
variable {α β ε : Type} (f : α → Except ε β)

theorem mapM_cons_ok {a : α} {b : β} (h : f a = .ok b) (l : List α) :
    (a :: l).mapM f = (l.mapM f).map (b :: ·) := by
  rw [List.mapM_cons, h]
  cases l.mapM f <;> rfl

theorem mapM_cons_error {a : α} {e : ε} (h : f a = .error e) (l : List α) :
    (a :: l).mapM f = .error e := by
  rw [List.mapM_cons, h]
  rfl

/-- A list whose elements are all read gives what they give. -/
theorem mapM_eq_ok {g : α → β} {l : List α} (h : ∀ a ∈ l, f a = .ok (g a)) :
    l.mapM f = .ok (l.map g) := by
  induction l with
  | nil => rfl
  | cons a l ih =>
    rw [mapM_cons_ok f (h a List.mem_cons_self), ih fun b hb => h b (List.mem_cons_of_mem a hb)]
    rfl

/-- Where each element can be read, the list can. -/
theorem exists_mapM_eq_ok {l : List α} (h : ∀ a ∈ l, ∃ b, f a = .ok b) :
    ∃ r, l.mapM f = .ok r := by
  induction l with
  | nil => exact ⟨[], rfl⟩
  | cons a l ih =>
    obtain ⟨b, hb⟩ := h a (by simp)
    obtain ⟨r, hr⟩ := ih fun x hx => h x (by simp [hx])
    refine ⟨b :: r, ?_⟩
    rw [mapM_cons_ok f hb, hr]
    rfl

/-- A list is read when each of its elements is. -/
theorem forall₂_of_mapM_eq_ok {l : List α} {r : List β} (h : l.mapM f = .ok r) :
    List.Forall₂ (fun a b => f a = .ok b) l r := by
  induction l generalizing r with
  | nil =>
    cases h
    exact .nil
  | cons a l ih =>
    cases ha : f a with
    | error e =>
      rw [mapM_cons_error f ha] at h
      cases h
    | ok b =>
      rw [mapM_cons_ok f ha] at h
      cases hl : l.mapM f with
      | error e =>
        rw [hl] at h
        cases h
      | ok bs =>
        rw [hl] at h
        cases h
        exact .cons ha (ih hl)

/-- Reading a list ends with the error of the first element that has one. -/
theorem mapM_eq_error_iff {error? : α → Option ε} {l : List α}
    (herror : ∀ a ∈ l, ∀ e, f a = .error e ↔ error? a = some e) (e : ε) :
    l.mapM f = .error e ↔ l.findSome? error? = some e := by
  induction l with
  | nil => simp [pure, Except.pure]
  | cons a l ih =>
    have ha := herror a (by simp)
    have hl := ih fun x hx => herror x (by simp [hx])
    cases hfa : f a with
    | error e' =>
      have hsome : error? a = some e' := (ha e').1 hfa
      rw [mapM_cons_error f hfa]
      simp [hsome]
    | ok b =>
      have hnone : error? a = none := by
        rw [Option.eq_none_iff_forall_ne_some]
        intro e' he'
        simp [(ha e').2 he'] at hfa
      rw [mapM_cons_ok f hfa, List.findSome?_cons_of_isNone (by simp [hnone]), ← hl]
      cases l.mapM f <;> simp [Except.map]

/-- Reading a list ends with the error of one of its elements. -/
theorem exists_of_mapM_eq_error {l : List α} {e : ε} (h : l.mapM f = .error e) :
    ∃ a ∈ l, f a = .error e := by
  have herror : ∀ a ∈ l, ∀ e, f a = .error e ↔
      (match f a with | .error e => some e | .ok _ => none) = some e := by
    intro a _ e
    cases f a <;> simp
  rw [mapM_eq_error_iff f herror] at h
  obtain ⟨a, ha, hfound⟩ := List.exists_of_findSome?_eq_some h
  exact ⟨a, ha, (herror a ha e).2 hfound⟩

end MapM

/-- Some items sorted by a key: none is lost or told twice, and those with one key keep their
order. -/
structure StablySorted {α κ : Type} [LE κ] [DecidableEq κ] (key : α → κ) (items sorted : List α) :
    Prop where
  perm : sorted.Perm items
  ordered : sorted.Pairwise fun a b => key a ≤ key b
  stable : ∀ k, sorted.filter (key · = k) = items.filter (key · = k)

section Sorting
variable {α β κ : Type} [LE κ] [DecidableLE κ] [DecidableEq κ]

theorem stablySorted_mergeSort [Std.IsLinearOrder κ] (key : α → κ) (items : List α) :
    StablySorted key items (items.mergeSort fun a b => key a ≤ key b) := by
  have htrans (a b c : α) : decide (key a ≤ key b) = true → decide (key b ≤ key c) = true →
      decide (key a ≤ key c) = true := by
    simp only [decide_eq_true_eq]
    exact Std.le_trans
  have htotal (a b : α) : (decide (key a ≤ key b) || decide (key b ≤ key a)) = true := by
    simpa using Std.le_total
  refine ⟨List.mergeSort_perm items _, ?_, ?_⟩
  · exact (List.pairwise_mergeSort htrans htotal items).imp of_decide_eq_true
  · intro k
    -- The items with one key are a sorted part of all items, so sorting keeps them in order.
    have hsame : (items.filter (key · = k)).Pairwise fun a b => decide (key a ≤ key b) = true := by
      apply List.pairwise_of_forall_mem_list
      intro a ha b hb
      have hkey (x : α) (hx : x ∈ items.filter (key · = k)) : key x = k := by
        simpa using (List.mem_filter.1 hx).2
      rw [decide_eq_true_eq, hkey a ha, hkey b hb]
      exact Std.le_refl k
    have hin := List.sublist_mergeSort htrans htotal hsame List.filter_sublist
    have hsub := hin.filter (key · = k)
    rw [List.filter_filter] at hsub
    simp only [Bool.and_self] at hsub
    refine (hsub.eq_of_length ?_).symm
    exact ((List.mergeSort_perm items _).filter _).length_eq.symm

omit [DecidableLE κ] in
/-- What is sorted by a key can be read through a function that keeps the key. -/
theorem StablySorted.map {key : α → κ} {items sorted : List α}
    (h : StablySorted key items sorted) (key' : β → κ) (f : α → β)
    (hkey : ∀ a ∈ items, key' (f a) = key a) :
    StablySorted key' (items.map f) (sorted.map f) := by
  have hsorted : ∀ a ∈ sorted, key' (f a) = key a := fun a ha => hkey a (h.perm.mem_iff.1 ha)
  refine ⟨h.perm.map f, ?_, ?_⟩
  · rw [List.pairwise_map]
    refine h.ordered.imp_of_mem ?_
    intro a b ha hb hle
    rwa [hsorted a ha, hsorted b hb]
  · intro k
    have hfilter (l : List α) (hl : ∀ a ∈ l, key' (f a) = key a) :
        (l.map f).filter (key' · = k) = (l.filter (key · = k)).map f := by
      rw [List.filter_map]
      congr 1
      apply List.filter_congr
      intro a ha
      simp [hl a ha]
    rw [hfilter sorted hsorted, hfilter items hkey, h.stable]

omit [DecidableLE κ] in
/-- Where parts have been sorted before, the whole is sorted all the same. -/
theorem StablySorted.of_parts {key : α → κ} {items items' part part' sorted : List α}
    (h : StablySorted key items part) (h' : StablySorted key items' part')
    (hsorted : StablySorted key (items ++ items') sorted) :
    StablySorted key (part ++ part') sorted where
  perm := hsorted.perm.trans (h.perm.append h'.perm).symm
  ordered := hsorted.ordered
  stable k := by
    rw [hsorted.stable, List.filter_append, List.filter_append, h.stable, h'.stable]

end Sorting

end HackAssembler
