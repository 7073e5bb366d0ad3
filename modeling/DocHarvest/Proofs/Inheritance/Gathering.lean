import DocHarvest.Proofs.Inheritance.Groups

/-!
What a class gathers from a list of bases.

Each base makes offers: its own methods first, then the methods that it inherits from further up.
Of all offers of a name the first one counts.  It is stored among the inherited methods if the class
does not declare the name, and it gives the override tag if the class does.
-/

namespace DocHarvest

/-! ### Names that are handed on -/

/-- The names with two underscores at both ends and something in between. -/
theorem isDunder_iff {name : String} :
    isDunder name = true ↔ ∃ inner, inner ≠ "" ∧ name = "__" ++ inner ++ "__" := by
  have mark : "__".toList = ['_', '_'] := by decide
  have backwards : ['_', '_'].reverse = ['_', '_'] := rfl
  unfold isDunder
  rw [Bool.and_eq_true, Bool.and_eq_true, decide_eq_true_iff, List.isPrefixOf_iff_prefix,
    List.isPrefixOf_iff_prefix, ← backwards, List.reverse_prefix, backwards]
  constructor
  · rintro ⟨⟨long, rest, begins⟩, front, finishes⟩
    have short {text : String} (size : text.utf8ByteSize ≤ 4) (same : text.toList = name.toList) :
        False := by
      rw [← String.toList_inj.mp same] at long
      exact Nat.not_lt.mpr size long
    have split := begins.trans finishes.symm
    -- the two marks may overlap or meet only in names that are too short
    match front with
    | [] => exact (@short "__" (by decide) finishes).elim
    | [_] =>
        cases split
        exact (@short "___" (by decide) finishes).elim
    | [_, _] =>
        cases split
        exact (@short "____" (by decide) finishes).elim
    | _ :: _ :: letter :: inner =>
        cases split
        refine ⟨String.ofList (letter :: inner), by simp, ?_⟩
        rw [← String.toList_inj, String.toList_append, String.toList_append, mark,
          String.toList_ofList]
        exact finishes.symm
  · rintro ⟨inner, nonempty, rfl⟩
    have some : inner.utf8ByteSize ≠ 0 := mt String.utf8ByteSize_eq_zero_iff.mp nonempty
    have two : "__".utf8ByteSize = 2 := by decide
    rw [String.toList_append, String.toList_append, mark]
    refine ⟨⟨?_, _, (List.append_assoc _ _ _).symm⟩, _, rfl⟩
    rw [String.utf8ByteSize_append, String.utf8ByteSize_append]
    omega

theorem propagates_iff {name : String} :
    propagates name = true ↔ isDunder name = false ∨ name = "__str__" ∨ name = "__repr__" := by
  simp [propagates, propagatedDunders]

/-! ### Offers -/

/-- A method that a base hands on, with the ancestor that it comes from. -/
structure Offer where
  base : String
  ancestor : String
  method : FunctionDoc

namespace Offer

/-- The entry that an offer leaves among the inherited methods. -/
def entry (offer : Offer) : String × FunctionDoc :=
  (offer.ancestor, offer.method.inheritedCopy offer.ancestor)

/-- The override tag of a declared method that an offer meets. -/
def tag (offer : Offer) : String :=
  offer.base ++ "." ++ offer.method.name

/-- The offers of one base, in the order in which they are made. -/
def ofBase (base : String) (record : ClassDoc) : List Offer :=
  record.methods.map (Offer.mk base base) ++
    ((record.inherited.getD .empty).entries.filter fun entry => entry.1 != base).map
      fun entry => ⟨base, entry.1, entry.2⟩

def first? (offers : List Offer) (name : String) : Option Offer :=
  offers.find? fun offer => offer.method.name == name

theorem first?_append (left right : List Offer) (name : String) :
    first? (left ++ right) name = (first? left name).or (first? right name) :=
  List.find?_append

theorem first?_concat_other (offers : List Offer) (offer : Offer) {name : String}
    (other : offer.method.name ≠ name) : first? (offers ++ [offer]) name = first? offers name := by
  rw [first?_append]
  have missing : first? [offer] name = none := by
    simp [first?, other]
  rw [missing, Option.or_none]

theorem first?_concat_known (offers : List Offer) (offer : Offer) {name : String}
    (known : (first? offers name).isSome = true) :
    first? (offers ++ [offer]) name = first? offers name := by
  obtain ⟨earlier, found⟩ := Option.isSome_iff_exists.mp known
  rw [first?_append, found, Option.some_or]

theorem first?_concat_new (offers : List Offer) (offer : Offer)
    (missing : first? offers offer.method.name = none) :
    first? (offers ++ [offer]) offer.method.name = some offer := by
  rw [first?_append, missing, Option.none_or]
  simp [first?]

theorem name_of_first? {offers : List Offer} {name : String} {offer : Offer}
    (found : first? offers name = some offer) : offer.method.name = name := by
  have named := List.find?_some found
  exact beq_iff_eq.mp named

end Offer

namespace Heritage

def ofBases (self : ClassDoc) (bases : List (String × ClassDoc)) : Heritage :=
  bases.foldl (fun heritage source => heritage.addBase self source.1 source.2) empty

def addOffer (declared : List String) (heritage : Heritage) (offer : Offer) : Heritage :=
  heritage.addMethod declared offer.base offer.ancestor offer.method

/-- All offers so far have been considered, and of each name the first one counted. -/
structure Gathered (declared : List String) (offers : List Offer) (heritage : Heritage) : Prop where
  distinct : heritage.inherited.ancestors.Nodup
  stored : ∀ name, heritage.inherited.entries.filter (Inherited.entryNamed name) =
    if propagates name && !declared.contains name then
      ((Offer.first? offers name).map Offer.entry).toList
    else []
  tagged : ∀ name, heritage.overrides.lookup name =
    if propagates name && declared.contains name then (Offer.first? offers name).map Offer.tag
    else none

namespace Gathered

variable {declared : List String} {offers : List Offer} {heritage : Heritage}

theorem empty (declared : List String) : Gathered declared [] Heritage.empty where
  distinct := List.nodup_nil
  stored := by
    intro name
    have none : Offer.first? [] name = .none := rfl
    rw [none]
    simp [Heritage.empty]
  tagged := by
    intro name
    have none : Offer.first? [] name = .none := rfl
    rw [none]
    simp [Heritage.empty]

theorem ignore (gathered : Gathered declared offers heritage) (offer : Offer)
    (moot : propagates offer.method.name = false ∨
      (Offer.first? offers offer.method.name).isSome = true) :
    Gathered declared (offers ++ [offer]) heritage := by
  have unchanged (name : String) : propagates name = false ∨
      Offer.first? (offers ++ [offer]) name = Offer.first? offers name := by
    by_cases same : offer.method.name = name
    · subst same
      exact moot.imp_right (Offer.first?_concat_known offers offer)
    · exact Or.inr (Offer.first?_concat_other offers offer same)
  refine ⟨gathered.distinct, ?_, ?_⟩
  · intro name
    rw [gathered.stored name]
    rcases unchanged name with stuck | same
    · simp only [stuck, Bool.false_and, Bool.false_eq_true, if_false]
    · rw [same]
  · intro name
    rw [gathered.tagged name]
    rcases unchanged name with stuck | same
    · simp only [stuck, Bool.false_and, Bool.false_eq_true, if_false]
    · rw [same]

theorem tag (gathered : Gathered declared offers heritage) (offer : Offer)
    (spreads : propagates offer.method.name = true)
    (known : declared.contains offer.method.name = true)
    (untagged : heritage.overrides.lookup offer.method.name = none) :
    Gathered declared (offers ++ [offer])
      { heritage with overrides := heritage.overrides ++ [(offer.method.name, offer.tag)] } := by
  have new : Offer.first? offers offer.method.name = none := by
    rw [gathered.tagged, spreads, known] at untagged
    simpa using untagged
  refine ⟨gathered.distinct, ?_, ?_⟩
  · intro name
    rw [gathered.stored name]
    by_cases same : offer.method.name = name
    · subst same
      simp only [known, Bool.not_true, Bool.and_false, Bool.false_eq_true, if_false]
    · rw [Offer.first?_concat_other offers offer same]
  · intro name
    rw [List.lookup_append]
    by_cases same : offer.method.name = name
    · subst same
      rw [untagged, Offer.first?_concat_new offers offer new, spreads, known, Option.none_or,
        List.lookup_cons_self]
      rfl
    · have other : (name == offer.method.name) = false :=
        beq_eq_false_iff_ne.mpr fun equal => same equal.symm
      have missing : [(offer.method.name, offer.tag)].lookup name = none := by
        rw [List.lookup_cons, other, List.lookup_nil]
      rw [missing, Option.or_none, gathered.tagged name,
        Offer.first?_concat_other offers offer same]

theorem store (gathered : Gathered declared offers heritage) (offer : Offer)
    (spreads : propagates offer.method.name = true)
    (unknown : declared.contains offer.method.name = false)
    (absent : heritage.inherited.containsMethod offer.method.name = false) :
    Gathered declared (offers ++ [offer])
      { heritage with
        inherited := heritage.inherited.push offer.ancestor
          (offer.method.inheritedCopy offer.ancestor) } := by
  have vacant :
      heritage.inherited.entries.filter (Inherited.entryNamed offer.method.name) = [] := by
    rw [Inherited.containsMethod_eq, List.any_eq_false] at absent
    exact List.filter_eq_nil_iff.mpr absent
  have new : Offer.first? offers offer.method.name = none := by
    have empty := vacant
    rw [gathered.stored, spreads, unknown] at empty
    simpa using empty
  refine ⟨Inherited.nodup_ancestors_extend _ _ _ gathered.distinct, ?_, ?_⟩
  · intro name
    by_cases same : offer.method.name = name
    · subst same
      rw [Offer.first?_concat_new offers offer new, spreads, unknown]
      exact Inherited.filter_entries_push_new heritage.inherited offer.ancestor
        (offer.method.inheritedCopy offer.ancestor) vacant
    · have kept := Inherited.filter_entries_push_other heritage.inherited offer.ancestor name
        (offer.method.inheritedCopy offer.ancestor) same
      rw [kept, gathered.stored name, Offer.first?_concat_other offers offer same]
  · intro name
    rw [gathered.tagged name]
    by_cases same : offer.method.name = name
    · subst same
      simp only [unknown, Bool.and_false, Bool.false_eq_true, if_false]
    · rw [Offer.first?_concat_other offers offer same]

theorem addOffer (gathered : Gathered declared offers heritage) (offer : Offer) :
    Gathered declared (offers ++ [offer]) (heritage.addOffer declared offer) := by
  unfold Heritage.addOffer addMethod
  cases spreads : propagates offer.method.name with
  | false => exact gathered.ignore offer (Or.inl spreads)
  | true =>
      simp only [Bool.not_true, Bool.false_eq_true, if_false]
      cases known : declared.contains offer.method.name with
      | true =>
          simp only [if_true]
          cases untagged : heritage.overrides.lookup offer.method.name with
          | none =>
              have fresh : ¬(heritage.overrides.any fun entry =>
                  entry.1 == offer.method.name) = true := by
                rw [List.any_eq_true]
                rintro ⟨entry, member, same⟩
                have differs := List.lookup_eq_none_iff.mp untagged entry member
                simp only [bne_iff_ne, ne_eq] at differs
                exact differs (beq_iff_eq.mp same).symm
              rw [if_neg fresh]
              exact gathered.tag offer spreads known untagged
          | some earlier =>
              have tagged : (heritage.overrides.any fun entry =>
                  entry.1 == offer.method.name) = true := by
                obtain ⟨before, after, split, _fresh⟩ := List.lookup_eq_some_iff.mp untagged
                rw [split]
                simp
              rw [if_pos tagged]
              apply gathered.ignore offer
              right
              rw [gathered.tagged, spreads, known] at untagged
              cases found : Offer.first? offers offer.method.name with
              | none => simp [found] at untagged
              | some _ => rfl
      | false =>
          simp only [Bool.false_eq_true, if_false]
          cases present : heritage.inherited.containsMethod offer.method.name with
          | false =>
              simp only [Bool.false_eq_true, if_false]
              exact gathered.store offer spreads known present
          | true =>
              simp only [if_true]
              apply gathered.ignore offer
              right
              rw [Inherited.containsMethod_eq, List.any_eq_true] at present
              obtain ⟨entry, member, named⟩ := present
              have kept := List.mem_filter.mpr ⟨member, named⟩
              rw [gathered.stored, spreads, known] at kept
              cases found : Offer.first? offers offer.method.name with
              | none => simp [found] at kept
              | some _ => rfl

theorem addOffers (gathered : Gathered declared offers heritage) (more : List Offer) :
    Gathered declared (offers ++ more) (more.foldl (Heritage.addOffer declared) heritage) := by
  induction more generalizing offers heritage with
  | nil =>
      rw [List.append_nil]
      exact gathered
  | cons offer rest ih =>
      rw [List.append_cons]
      exact ih (gathered.addOffer offer)

theorem openGroup (gathered : Gathered declared offers heritage) (chain : List String)
    (base : String) :
    Gathered declared offers
      { heritage with chain, inherited := heritage.inherited.ensure base } := by
  refine ⟨Inherited.nodup_ancestors_extend _ _ _ gathered.distinct, ?_, gathered.tagged⟩
  intro name
  rw [Inherited.filter_entries_ensure]
  exact gathered.stored name

end Gathered

/-- A base extends the chain and opens its group; all the rest are its offers. -/
theorem addBase_eq (self : ClassDoc) (base : String) (record : ClassDoc) (heritage : Heritage) :
    heritage.addBase self base record =
      (Offer.ofBase base record).foldl (addOffer (self.methods.map FunctionDoc.name))
        { heritage with
          chain := (base :: record.chain.getD []).foldl (addAncestor self.name) heritage.chain
          inherited := heritage.inherited.ensure base } := by
  have handed : (((record.inherited.getD .empty).entries.filter fun entry =>
      entry.1 != base).map fun entry => Offer.mk base entry.1 entry.2) =
      ((record.inherited.getD .empty).groups.filter fun group => group.1 != base).flatMap
        fun group => group.2.map fun method => Offer.mk base group.1 method := by
    unfold Inherited.entries
    generalize (record.inherited.getD .empty).groups = groups
    induction groups with
    | nil => rfl
    | cons group rest ih =>
        rw [List.flatMap_cons, List.filter_append, List.map_append, ih, List.filter_map]
        by_cases own : group.1 = base
        · simp [own, Function.comp_def]
        · have other : (group.1 != base) = true := bne_iff_ne.mpr own
          simp [other, Function.comp_def]
  unfold Offer.ofBase
  rw [handed, List.foldl_append, List.foldl_flatMap, List.foldl_map]
  simp only [List.foldl_map]
  rfl

private theorem chain_addOffers (declared : List String) (offers : List Offer)
    (heritage : Heritage) :
    (offers.foldl (addOffer declared) heritage).chain = heritage.chain := by
  induction offers generalizing heritage with
  | nil => rfl
  | cons offer rest ih =>
      rw [List.foldl_cons, ih]
      unfold addOffer addMethod
      split
      · rfl
      · split
        · split
          · rfl
          · rfl
        · split
          · rfl
          · rfl

/-- The ancestors that bases bring, in order and with repetitions. -/
def lineOf (bases : List (String × ClassDoc)) : List String :=
  bases.flatMap fun source => source.1 :: source.2.chain.getD []

theorem ofBases_chain (self : ClassDoc) (bases : List (String × ClassDoc)) :
    (ofBases self bases).chain = ((lineOf bases).filter (· != self.name)).eraseDups := by
  have run (heritage : Heritage) :
      (bases.foldl (fun heritage source => heritage.addBase self source.1 source.2)
        heritage).chain = (lineOf bases).foldl (addAncestor self.name) heritage.chain := by
    induction bases generalizing heritage with
    | nil => rfl
    | cons source rest ih =>
        rw [List.foldl_cons, ih, addBase_eq, chain_addOffers]
        unfold lineOf
        rw [List.flatMap_cons, List.foldl_append]
  rw [← foldl_addAncestor]
  exact run empty

/-- What a class gathers is decided by the first offer of each name. -/
theorem ofBases_gathered (self : ClassDoc) (bases : List (String × ClassDoc)) :
    Gathered (self.methods.map FunctionDoc.name)
      (bases.flatMap fun source => Offer.ofBase source.1 source.2) (ofBases self bases) := by
  have run (offers : List Offer) (heritage : Heritage)
      (gathered : Gathered (self.methods.map FunctionDoc.name) offers heritage) :
      Gathered (self.methods.map FunctionDoc.name)
        (offers ++ bases.flatMap fun source => Offer.ofBase source.1 source.2)
        (bases.foldl (fun heritage source => heritage.addBase self source.1 source.2)
          heritage) := by
    induction bases generalizing offers heritage with
    | nil =>
        rw [List.flatMap_nil, List.append_nil]
        exact gathered
    | cons source rest ih =>
        rw [List.foldl_cons, List.flatMap_cons, ← List.append_assoc, addBase_eq]
        exact ih _ _ ((gathered.openGroup _ _).addOffers _)
  have whole := run [] empty (Gathered.empty _)
  rw [List.nil_append] at whole
  exact whole

end Heritage

end DocHarvest
