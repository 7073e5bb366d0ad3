import Mathlib.Data.List.Induction
import DocHarvest.Registry

/-!
First occurrences in lists of names.

The chain of a class and its resolution order both grow by one name at the end, unless the name is
there already.  Each is therefore the list of first occurrences of the names that were offered.
-/

namespace DocHarvest.FirstOccurrence

variable {α : Type} [BEq α] [LawfulBEq α]

theorem eraseDups_concat_of_mem {names : List α} {name : α} (known : name ∈ names) :
    (names ++ [name]).eraseDups = names.eraseDups := by
  rw [List.eraseDups_append]
  have nothing : [name].removeAll names = [] := by
    simp [List.removeAll, known]
  rw [nothing, List.eraseDups_nil, List.append_nil]

theorem eraseDups_concat_of_not_mem {names : List α} {name : α} (fresh : name ∉ names) :
    (names ++ [name]).eraseDups = names.eraseDups ++ [name] := by
  rw [List.eraseDups_append]
  have all : [name].removeAll names = [name] := by
    simp [List.removeAll, fresh]
  rw [all, List.eraseDups_cons, List.filter_nil, List.eraseDups_nil]

theorem nodup_eraseDups (names : List α) : names.eraseDups.Nodup := by
  induction names using List.reverseRecOn with
  | nil => exact List.nodup_nil
  | append_singleton names name ih =>
      by_cases known : name ∈ names
      · rw [eraseDups_concat_of_mem known]
        exact ih
      · rw [eraseDups_concat_of_not_mem known, List.nodup_append]
        refine ⟨ih, List.pairwise_singleton _ name, ?_⟩
        intro earlier member last lastMember same
        rw [List.mem_singleton] at lastMember
        subst lastMember same
        exact known (List.mem_eraseDups.mp member)

theorem findSome?_eraseDups {β : Type} (names : List α) (find : α → Option β) :
    names.eraseDups.findSome? find = names.findSome? find := by
  induction names using List.reverseRecOn with
  | nil => rfl
  | append_singleton names name ih =>
      by_cases known : name ∈ names
      · rw [eraseDups_concat_of_mem known, ih, List.findSome?_append]
        cases found : names.findSome? find with
        | some first => rfl
        | none =>
            have missing := List.findSome?_eq_none_iff.mp found name known
            rw [List.findSome?_singleton, missing, Option.none_or]
      · rw [eraseDups_concat_of_not_mem known, List.findSome?_append, List.findSome?_append, ih]

theorem eraseDups_filter (names : List α) (kept : α → Bool) :
    (names.filter kept).eraseDups = names.eraseDups.filter kept := by
  induction names using List.reverseRecOn with
  | nil => rfl
  | append_singleton names name ih =>
      rw [List.filter_append]
      cases keep : kept name with
      | false =>
          have dropped : [name].filter kept = [] := by simp [keep]
          rw [dropped, List.append_nil, ih]
          by_cases known : name ∈ names
          · rw [eraseDups_concat_of_mem known]
          · rw [eraseDups_concat_of_not_mem known, List.filter_append, dropped, List.append_nil]
      | true =>
          have taken : [name].filter kept = [name] := by simp [keep]
          rw [taken]
          by_cases known : name ∈ names
          · have member : name ∈ names.filter kept := List.mem_filter.mpr ⟨known, keep⟩
            rw [eraseDups_concat_of_mem member, eraseDups_concat_of_mem known, ih]
          · have absent : name ∉ names.filter kept := fun member =>
              known (List.mem_filter.mp member).1
            rw [eraseDups_concat_of_not_mem absent, eraseDups_concat_of_not_mem known,
              List.filter_append, taken, ih]

/-- The first occurrences of two joined lists depend on the first occurrences of each only. -/
theorem eraseDups_append_congr {left left' right right' : List α}
    (lefts : left.eraseDups = left'.eraseDups) (rights : right.eraseDups = right'.eraseDups) :
    (left ++ right).eraseDups = (left' ++ right').eraseDups := by
  have members (name : α) : left.contains name = left'.contains name := by
    rw [Bool.eq_iff_iff, List.contains_iff_mem, List.contains_iff_mem, ← List.mem_eraseDups,
      lefts, List.mem_eraseDups]
  have same : (fun name => !left.contains name) = fun name => !left'.contains name := by
    funext name
    rw [members]
  rw [List.eraseDups_append, List.eraseDups_append, lefts]
  change _ ++ (right.filter fun name => !left.contains name).eraseDups =
    _ ++ (right'.filter fun name => !left'.contains name).eraseDups
  rw [eraseDups_filter, eraseDups_filter, rights, same]

theorem eraseDups_of_nodup {names : List α} (distinct : names.Nodup) :
    names.eraseDups = names := by
  induction names using List.reverseRecOn with
  | nil => rfl
  | append_singleton names name ih =>
      rw [List.nodup_append] at distinct
      obtain ⟨earlier, _single, apart⟩ := distinct
      have fresh : name ∉ names := fun member =>
        apart name member name (List.mem_singleton.mpr rfl) rfl
      rw [eraseDups_concat_of_not_mem fresh, ih earlier]

theorem eraseDups_eraseDups (names : List α) : names.eraseDups.eraseDups = names.eraseDups :=
  eraseDups_of_nodup (nodup_eraseDups names)

theorem eraseDups_cons_congr (name : α) {left right : List α}
    (same : left.eraseDups = right.eraseDups) :
    (name :: left).eraseDups = (name :: right).eraseDups := by
  have alone : [name].eraseDups = [name].eraseDups := rfl
  exact eraseDups_append_congr alone same

omit [LawfulBEq α] in
theorem eraseDups_cons_filter (name : α) (names : List α) :
    (name :: names.filter (· != name)).eraseDups = (name :: names).eraseDups := by
  rw [List.eraseDups_cons, List.eraseDups_cons, List.filter_filter]
  congr 2
  apply List.filter_congr
  intro other _member
  simp [bne]

/-- Adding names one by one, each unless it is there, keeps first occurrences. -/
theorem foldl_addNew (names : List α) :
    names.foldl (fun order name => if order.contains name then order else order ++ [name]) [] =
      names.eraseDups := by
  induction names using List.reverseRecOn with
  | nil => rfl
  | append_singleton names name ih =>
      rw [List.foldl_append, ih, List.foldl_cons, List.foldl_nil]
      by_cases known : name ∈ names
      · have seen : names.eraseDups.contains name = true :=
          List.contains_iff_mem.mpr (List.mem_eraseDups.mpr known)
        rw [if_pos seen, eraseDups_concat_of_mem known]
      · have unseen : ¬names.eraseDups.contains name = true := fun seen =>
          known (List.mem_eraseDups.mp (List.contains_iff_mem.mp seen))
        rw [if_neg unseen, eraseDups_concat_of_not_mem known]

end DocHarvest.FirstOccurrence

namespace DocHarvest.Heritage

open FirstOccurrence

/-- A chain holds the first occurrences of the ancestors offered, without the class itself. -/
theorem foldl_addAncestor (self : String) (ancestors : List String) :
    ancestors.foldl (addAncestor self) [] = (ancestors.filter (· != self)).eraseDups := by
  have pass (known : List String) :
      ancestors.foldl (addAncestor self) known = (ancestors.filter (· != self)).foldl
        (fun order name => if order.contains name then order else order ++ [name]) known := by
    induction ancestors generalizing known with
    | nil => rfl
    | cons ancestor rest ih =>
        rw [List.foldl_cons, ih]
        by_cases itself : ancestor = self
        · simp [addAncestor, itself]
        · simp [addAncestor, itself]
  rw [pass, foldl_addNew]

theorem resolutionOrder_eq (self : String) (bases chain : List String) :
    resolutionOrder self bases chain = (self :: (bases ++ chain)).eraseDups := by
  rw [← foldl_addNew, List.foldl_cons]
  rfl

end DocHarvest.Heritage
