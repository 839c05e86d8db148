import RankedTable.Proofs.Command.Replies
import RankedTable.Proofs.Table.Answers
import RankedTable.Proofs.Table.Following
import RankedTable.Proofs.Table.Transaction

/-!
# Guards and ranges

The same condition can guard a write and bound a query.  A guard is asked of the value that an item
has, and a range of the texts that values sort by.  With an operand of the value's kind both mean
the same, but for one thing: a guard that a number equals another looks at how the two are spelled,
and a range at what they stand for.

* **`Condition.IsRange.holds`** — what a condition means for a value.
* `Layout.Passes`, `Layout.Bars` — a condition lets writes be made, or not.
* `passes_iff`, `bars_of_not_held` — it does just if the item can be read and the condition holds.
* `mem_matching_iff` — which items an index has in a range.
* **`followed_items`** — whoever is answered on the way through a range has seen all of it.
* **`guards_agree_with_ranges`** — a condition lets an item be written just if the range has it.
* `guard_spelled_otherwise` — but for numbers that are spelled in two ways.
-/

namespace RankedTable

/-! ## What a condition means for a value -/

section Values

variable {value : Value} {m n : Magnitude}

/-- Values that can be compared are equal just if they are spelled alike. -/
lemma Value.same_iff (h : value.HasMagnitude m) (other : Value) :
    value.same other = true ↔ value = other := by
  cases h <;> cases other <;> simp [same]

/-- The texts of values of one kind are the same just if neither comes behind the other. -/
lemma Magnitude.Spelled.eq_iff_atMost {s t : String} (hm : m.Spelled s) (hn : n.Spelled t)
    (hkind : m.kind = n.kind) : m = n ↔ m.AtMost n ∧ n.AtMost m := by
  rw [← hm.eq_iff hn hkind, ← hm.le_iff hn hkind, ← hn.le_iff hm hkind.symm]
  exact le_antisymm_iff

/-- **A condition on a value of its operands' kind holds just if the value lies within its bounds**;
one that it equals another, just if they are also spelled alike. -/
theorem Condition.IsRange.holds {condition : Condition} (h : condition.IsRange value.kind)
    (hm : value.HasMagnitude m) :
    ∃ held, condition.holds (some value) = .ok held ∧
      (held = true ↔
        condition.Admits m ∧ (condition.op = .eq → condition.values = [value])) := by
  obtain ⟨text, htext, hspelled⟩ := sortText_of_hasMagnitude hm
  have hkind := hm.kind_eq
  obtain ⟨subject, op, values⟩ := condition
  match op, values, h with
  | .eq, [v], h =>
      refine ⟨value.same v, rfl, ?_⟩
      rw [Value.same_iff hm]
      constructor
      · rintro rfl
        exact ⟨hm, fun _ => rfl⟩
      · exact fun ⟨_, hspelled⟩ => (List.singleton_inj.mp (hspelled rfl)).symm
  | .ge, [low], h =>
      obtain ⟨s, hs, hbounds⟩ := h.bounds
      have htexts : [low].mapM Value.sortText = .ok [s] := by
        rw [List.mapM_cons, hs]
        rfl
      refine ⟨decide (s ≤ text), ?_, ?_⟩
      · rw [holds_comparison (by simp) rfl h.1.symm, htext, htexts]
        rfl
      · rw [decide_eq_true_eq]
        exact (hbounds hkind hspelled).1.trans (and_iff_left nofun).symm
  | .le, [high], h =>
      obtain ⟨s, hs, hbounds⟩ := h.bounds
      have htexts : [high].mapM Value.sortText = .ok [s] := by
        rw [List.mapM_cons, hs]
        rfl
      refine ⟨decide (text ≤ s), ?_, ?_⟩
      · rw [holds_comparison (by simp) rfl h.1.symm, htext, htexts]
        rfl
      · rw [decide_eq_true_eq]
        exact (hbounds hkind hspelled).2.trans (and_iff_left nofun).symm
  | .between, [low, high], h =>
      obtain ⟨s, hs, hlow⟩ := h.1.bounds
      obtain ⟨t, ht, hhigh⟩ := h.2.bounds
      have htexts : [low, high].mapM Value.sortText = .ok [s, t] := by
        rw [List.mapM_cons, List.mapM_cons, hs, ht]
        rfl
      refine ⟨if s ≤ text then decide (text ≤ t) else false, ?_, ?_⟩
      · rw [holds_comparison (by simp) rfl h.1.1.symm, htext, htexts]
        exact (apply_ite Except.ok ..).symm
      · rw [Bool.if_false_right, Bool.and_eq_true, decide_eq_true_eq, decide_eq_true_eq]
        exact (and_congr (hlow hkind hspelled).1 (hhigh hkind hspelled).2).trans
          (and_iff_left nofun).symm

/-- Only numbers that stand for the same are spelled in more than one way. -/
lemma Value.HasMagnitude.eq_of_kind {other : Value} (h : value.HasMagnitude m)
    (hother : other.HasMagnitude m) (hkind : value.kind ≠ .number) : value = other := by
  cases h with
  | number => exact absurd rfl hkind
  | _ =>
      cases hother
      rfl

/-- What lies within the bound of an equality is the operand, unless it is a number. -/
lemma Condition.Admits.values_eq {condition : Condition} (hop : condition.op = .eq)
    (h : condition.Admits m) (hm : value.HasMagnitude m) (hkind : value.kind ≠ .number) :
    condition.values = [value] := by
  obtain ⟨subject, op, values⟩ := condition
  obtain rfl : op = .eq := hop
  cases values with
  | nil => exact h.elim
  | cons v rest =>
      cases rest with
      | nil => rw [hm.eq_of_kind h hkind]
      | cons => exact h.elim

end Values

variable {layout : Layout} {table : Table}

/-! ## Guarded writes -/

/-- A condition lets an item be written: a deletion under it is made, and an update under it does
what it does without. -/
structure Layout.Passes (layout : Layout) (table : Table) (key : ItemKey) (condition : Condition) :
    Prop where
  delete : layout.write table (.delete key [condition]) = (.ok (), table.remove key)
  update : ∀ updates, layout.write table (.update key updates [condition]) =
    layout.write table (.update key updates [])

/-- A condition lets an item not be written: a write under it changes nothing, and is told that the
condition was missed, if the item can be read. -/
def Layout.Bars (layout : Layout) (table : Table) (item : Item) (condition : Condition) : Prop :=
  ∀ w : Write, w.key = item.key → w.conditions = [condition] →
    ∃ e, layout.write table w = (.error e, table) ∧
      (item.attributes.depth ≤ Json.maxDepth →
        e = .conditionFailed (.condition condition.op condition.subject item.key))

section Guarded

variable {item : Item} {condition : Condition} {held : Bool} (hopen : table.isOpen = true)
  (hitem : table.find? item.key = some item)
  (hheld : condition.holds (layout.subject table item.key condition) = .ok held)

include hopen hitem hheld

/-- A condition that does not hold, or is on an item that cannot be read, lets nothing be
written. -/
lemma Layout.bars_of_not_held (h : ¬(item.attributes.depth ≤ Json.maxDepth ∧ held = true)) :
    layout.Bars table item condition := by
  intro w hkey hconditions
  by_cases hdepth : item.attributes.depth ≤ Json.maxDepth
  · obtain rfl : held = false := Bool.eq_false_iff.mpr fun htrue => h ⟨hdepth, htrue⟩
    have hfront : layout.Admits table w.key [] := by
      refine ⟨hopen, fun other hother => ?_, fun _ hc => nomatch hc⟩
      rw [hkey, hitem] at hother
      exact Option.some_inj.mp hother ▸ hdepth
    refine ⟨_, Layout.write_refused (.missed hfront hconditions (hkey ▸ hheld)), fun _ => ?_⟩
    rw [hkey]
  · exact ⟨_, Layout.write_refused (.unreadable hopen (hkey ▸ hitem) (not_le.mp hdepth)),
      fun hle => absurd hle hdepth⟩

/-- **A condition lets an item be written just if the item can be read and the condition holds.** -/
theorem Layout.passes_iff :
    layout.Passes table item.key condition ↔
      item.attributes.depth ≤ Json.maxDepth ∧ held = true := by
  constructor
  · intro hpasses
    by_contra h
    obtain ⟨e, hbarred, -⟩ := Layout.bars_of_not_held hopen hitem hheld h
      (.delete item.key [condition]) rfl rfl
    cases (Prod.mk.inj (hpasses.delete.symm.trans hbarred)).1
  · rintro ⟨hdepth, rfl⟩
    have hadmits : layout.Admits table item.key [condition] := by
      refine ⟨hopen, fun other hother => ?_, fun c hc => ?_⟩
      · rw [hitem] at hother
        exact Option.some_inj.mp hother ▸ hdepth
      · rw [List.mem_singleton.mp hc]
        exact hheld
    exact ⟨Layout.write_delete hadmits, fun updates =>
      (Layout.write_unconditional (w := .update item.key updates [condition]) hadmits).symm⟩

end Guarded

/-! ## Ranges -/

/-- **An index has an item in a range just if the text of its value is within the bounds**, whatever
the values of other items are. -/
theorem mem_matching_iff (hmirrors : Mirrors layout table) {item : Item}
    (hitem : table.find? item.key = some item) {subject : String} (hindexed : subject ∈ layout.indexed)
    {value : Value} (hvalue : item.get? subject = some value) {text : String}
    (htext : value.sortText = .ok text) {request : QueryRequest}
    (hpartition : request.partition = item.key.partition) (hindex : request.index = some subject)
    (test : String → Bool) :
    item ∈ (table.matching request test).map Row.item ↔ test text = true := by
  have hrow : table.indexed? item.key subject = some text := by
    rw [hmirrors.row, if_pos hindexed, Table.attribute?, hitem, Option.bind_some, hvalue,
      Option.bind_some, htext]
    rfl
  rw [List.mem_map]
  constructor
  · rintro ⟨row, hmatching, rfl⟩
    obtain ⟨hmem, htest⟩ := List.mem_filter.mp (mem_sortRows.mp hmatching)
    rw [hindex] at hmem
    obtain ⟨-, -, hindexedRow⟩ := (Table.mem_rows_index hmirrors.rows row).mp hmem
    rwa [← Option.some_inj.mp (hrow.symm.trans hindexedRow)] at htest
  · intro htest
    refine ⟨⟨text, item⟩, mem_sortRows.mpr (List.mem_filter.mpr ⟨?_, htest⟩), rfl⟩
    rw [hindex]
    exact (Table.mem_rows_index hmirrors.rows _).mpr ⟨hpartition.symm, hitem, hrow⟩

/-- **Whoever is answered on the way through a range has seen all of it**, and all that was seen can
be read. -/
theorem followed_items (hmirrors : Mirrors layout table) {request : QueryRequest}
    {test : String → Bool} (haccepted : request.Accepted layout test)
    (hitems : request.selectCount = false) {limits : ℕ → Option ℤ}
    (hlimits : ∀ i, IsPageLimit (tighter (limits i) layout.pageSize)) {i k : ℕ}
    (hk : k ≤ (table.matching request test).length) {token : Option Token}
    (htoken : token = tokenAt (table.matching request test) k) {pages : List QueryPage}
    (h : Followed layout table request limits i token pages) :
    pages.flatMap (·.items) = ((table.matching request test).drop k).map Row.item ∧
      ∀ item ∈ pages.flatMap (·.items), item.attributes.depth ≤ Json.maxDepth := by
  have hpiece : ∀ {i k token page}, k ≤ (table.matching request test).length →
      token = tokenAt (table.matching request test) k →
      layout.query table (request.next (limits i) token) = .ok page →
      page.items = (cut (tighter (limits i) layout.pageSize)
          ((table.matching request test).drop k)).map Row.item ∧
        page.lastKey = pageToken (tighter (limits i) layout.pageSize)
          (cut (tighter (limits i) layout.pageSize) ((table.matching request test).drop k)) ∧
        ∀ item ∈ page.items, item.attributes.depth ≤ Json.maxDepth := by
    intro i k token page hk htoken hpage
    have haccepted' : (request.next (limits i) token).Accepted layout test :=
      ⟨haccepted.index, haccepted.bounds⟩
    exact query_answered hmirrors haccepted' hitems hk htoken (fun n => (hlimits i).fitsWord) hpage
  induction h generalizing k with
  | last hpage hlast =>
      obtain ⟨hpageItems, hnext, hdepth⟩ := hpiece hk htoken hpage
      rw [List.flatMap_singleton]
      rcases page_step (hlimits _) (table.matching request test) k with
        ⟨hall, -⟩ | ⟨n, next, -, -, -, hmore, -⟩
      · exact ⟨hpageItems.trans (by rw [hall]), hdepth⟩
      · rw [hlast, hmore] at hnext
        cases hnext
  | more hpage hmore hrest ih =>
      obtain ⟨hpageItems, hnext, hdepth⟩ := hpiece hk htoken hpage
      rcases page_step (hlimits _) (table.matching request test) k with
        ⟨-, hnone⟩ | ⟨n, next, -, hkn, hcut, hsome, hat⟩
      · rw [hmore, hnone] at hnext
        cases hnext
      · rw [hmore, hsome] at hnext
        obtain ⟨hrestItems, hrestDepth⟩ := ih hkn (hnext.trans hat.symm)
        rw [List.flatMap_cons]
        refine ⟨?_, fun item hitem => (List.mem_append.mp hitem).elim (hdepth item)
          (hrestDepth item)⟩
        rw [hpageItems, hrestItems, hcut, ← List.map_append, ← List.drop_drop,
          List.take_append_drop]

/-! ## Guards and ranges of one condition -/

/-- The range that a condition bounds in the index on its attribute, in the collection of an
item. -/
def Condition.rangeAround (condition : Condition) (item : Item) (forward : Bool) :
    QueryRequest where
  partition := item.key.partition
  index := some condition.subject
  keyRange := some condition
  forward := forward

/-- A condition on a value of an item decides alike on writes of the item and on the range that it
bounds: it lets the item be written, or not, and does so just if the range has the item; one that
the value equals another number, just if the two are also spelled alike. -/
structure GuardAgrees (layout : Layout) (table : Table) (item : Item) (value : Value)
    (condition : Condition) : Prop where
  decides : layout.Passes table item.key condition ∨ layout.Bars table item condition
  answered : ∀ forward limits, (∀ i, IsServed (tighter (limits i) layout.pageSize)) →
    (∀ other ∈ table.items, other.attributes.depth ≤ Json.maxDepth) →
    ∃ pages, Followed layout table (condition.rangeAround item forward) limits 0 none pages
  contained : ∀ forward limits pages, (∀ i, IsPageLimit (tighter (limits i) layout.pageSize)) →
    Followed layout table (condition.rangeAround item forward) limits 0 none pages →
    (condition.op = .eq → value.kind ≠ .number) →
    (layout.Passes table item.key condition ↔ item ∈ pages.flatMap (·.items))
  spelled : ∀ forward limits pages, (∀ i, IsPageLimit (tighter (limits i) layout.pageSize)) →
    Followed layout table (condition.rangeAround item forward) limits 0 none pages →
    (layout.Passes table item.key condition ↔
      item ∈ pages.flatMap (·.items) ∧ (condition.op = .eq → condition.values = [value]))

section Agreement

variable {item : Item} {subject : String} {value : Value} {m : Magnitude}
  (hmirrors : Mirrors layout table) (hitem : item ∈ table.items)
  (hindexed : subject ∈ layout.indexed) (hsubject : layout.IsAttribute subject)
  (hvalue : item.get? subject = some value) (hm : value.HasMagnitude m)

include hmirrors hitem hsubject hvalue hm

/-- A condition lets an item be written just if the item can be read and its value lies within the
bounds; one that it equals another, just if they are also spelled alike. -/
theorem passes_iff_admits (condition : Condition) (hcondition : condition.subject = subject)
    (hrange : condition.IsRange value.kind) :
    (layout.Passes table item.key condition ∨ layout.Bars table item condition) ∧
      (layout.Passes table item.key condition ↔ item.attributes.depth ≤ Json.maxDepth ∧
        condition.Admits m ∧ (condition.op = .eq → condition.values = [value])) := by
  have hfind := (Table.find?_eq_some_iff hmirrors.items item).mpr hitem
  obtain ⟨held, hholds, hheld⟩ := hrange.holds hm
  have hread : layout.subject table item.key condition = some value := by
    rw [Layout.subject, hcondition, hsubject.read, Table.attribute?, hfind]
    exact hvalue
  rw [← hread] at hholds
  have hpasses := Layout.passes_iff hmirrors.isOpen hfind hholds
  refine ⟨?_, by rw [hpasses, hheld]⟩
  by_cases h : item.attributes.depth ≤ Json.maxDepth ∧ held = true
  · exact .inl (hpasses.mpr h)
  · exact .inr (Layout.bars_of_not_held hmirrors.isOpen hfind hholds h)

include hindexed

/-- **A condition decides alike on writes of an item and on the range that it bounds.** -/
theorem guardAgrees {condition : Condition} (hcondition : condition.subject = subject)
    (hrange : condition.IsRange value.kind) : GuardAgrees layout table item value condition := by
  subst hcondition
  have hfind := (Table.find?_eq_some_iff hmirrors.items item).mpr hitem
  obtain ⟨hdecides, hpasses⟩ := passes_iff_admits hmirrors hitem hsubject hvalue hm
    condition rfl hrange
  obtain ⟨text, htext, hspelled⟩ := sortText_of_hasMagnitude hm
  obtain ⟨clause, test, hclause, hbounds, htest⟩ := hrange.test
  have haccepted : ∀ forward, (condition.rangeAround item forward).Accepted layout test := by
    refine fun forward => ⟨mem_indexed_of_eq rfl hindexed, some clause, some test, ?_, ?_,
      fun _ => rfl⟩
    · change (some condition).mapM Condition.rangeClause = _
      rw [Option.mapM_some, hclause]
      rfl
    · rw [Option.mapM_some, hbounds]
      rfl
  have hcontained : ∀ {forward limits pages},
      (∀ i, IsPageLimit (tighter (limits i) layout.pageSize)) →
      Followed layout table (condition.rangeAround item forward) limits 0 none pages →
      (item ∈ pages.flatMap (·.items) ↔
        item.attributes.depth ≤ Json.maxDepth ∧ condition.Admits m) := by
    intro forward limits pages hlimits hpages
    obtain ⟨hitems, hdepth⟩ := followed_items hmirrors (haccepted forward) rfl hlimits
      (Nat.zero_le _) rfl hpages
    have hmem : item ∈ (table.matching (condition.rangeAround item forward) test).map Row.item ↔
        test text = true := mem_matching_iff hmirrors hfind hindexed hvalue htext rfl rfl test
    rw [List.drop_zero] at hitems
    rw [← hitems, htest m text hm.kind_eq hspelled] at hmem
    exact ⟨fun h => ⟨hdepth item h, hmem.mp h⟩, fun h => hmem.mpr h.2⟩
  refine ⟨hdecides, fun forward limits hlimits hdepth => ?_,
    fun forward limits pages hlimits hpages hkind => ?_,
    fun forward limits pages hlimits hpages => ?_⟩
  · have hread : ∀ row ∈ table.matching (condition.rangeAround item forward) test,
        row.readItem = .ok row.item := by
      intro row hrow
      have hmem := Table.item_of_mem_rows (Table.mem_rows_of_mem_matching hrow)
      exact Row.readItem_eq_ok.mpr ⟨rfl, hdepth _ hmem.1⟩
    obtain ⟨pages, hvisits⟩ :=
      exists_visits hmirrors (haccepted forward) hread hlimits (Nat.zero_le _) 0
    exact ⟨pages, hvisits.followed⟩
  · rw [hpasses, hcontained hlimits hpages]
    exact and_congr_right fun _ => and_iff_left_of_imp fun hadmits hop =>
      hadmits.values_eq hop hm (hkind hop)
  · rw [hpasses, hcontained hlimits hpages, and_assoc]

omit hindexed in
/-- **A value equals an operand just if it lies on both sides of it**, as far as guards can tell;
numbers must also be spelled alike. -/
theorem passes_eq_iff {v : Value} (hoperand : v.IsOperand value.kind) :
    layout.Passes table item.key (.eq subject v) ↔
      layout.Passes table item.key ⟨subject, .ge, [v]⟩ ∧
        layout.Passes table item.key ⟨subject, .le, [v]⟩ ∧ (value.kind = .number → v = value) := by
  obtain ⟨n, text, hn, hkind, -, hspelled⟩ := hoperand.sortText
  obtain ⟨text', -, hspelled'⟩ := sortText_of_hasMagnitude hm
  have hsides := hspelled.eq_iff_atMost hspelled' (hkind.trans hm.kind_eq.symm)
  have hpasses := passes_iff_admits hmirrors hitem hsubject hvalue hm
  rw [(hpasses (.eq subject v) rfl hoperand).2, (hpasses ⟨subject, .ge, [v]⟩ rfl hoperand).2,
    (hpasses ⟨subject, .le, [v]⟩ rfl hoperand).2]
  constructor
  · rintro ⟨hdepth, hadmits, hvalues⟩
    obtain rfl := List.singleton_inj.mp (hvalues rfl)
    have heq := hn.unique hm
    exact ⟨⟨hdepth, ⟨n, hn, (hsides.mp heq).1⟩, nofun⟩, ⟨hdepth, ⟨n, hn, (hsides.mp heq).2⟩, nofun⟩,
      fun _ => rfl⟩
  · rintro ⟨⟨hdepth, ⟨l, hl, hle⟩, -⟩, ⟨-, ⟨h, hh, hge⟩, -⟩, hnumber⟩
    obtain rfl := hl.unique hn
    obtain rfl := hh.unique hn
    obtain rfl := hsides.mpr ⟨hle, hge⟩
    refine ⟨hdepth, hn, fun _ => congrArg (fun v => [v]) ?_⟩
    by_cases hkind : value.kind = .number
    · exact hnumber hkind
    · exact (hm.eq_of_kind hn hkind).symm

end Agreement

/-- **After any history a condition on an indexed value lets its item be written just if the range
that it bounds has the item**; one that a number equals another, just if they are also spelled
alike. -/
theorem guards_agree_with_ranges (layout : Layout) (calls : List Call) {item : Item}
    {subject : String} {value : Value} (hitem : item ∈ (layout.perform calls).2.items)
    (hindexed : subject ∈ layout.indexed) (hsubject : layout.IsAttribute subject)
    (hvalue : item.get? subject = some value) :
    (∀ condition : Condition, condition.subject = subject → condition.IsRange value.kind →
      GuardAgrees layout (layout.perform calls).2 item value condition) ∧
    ∀ v : Value, v.IsOperand value.kind →
      (layout.Passes (layout.perform calls).2 item.key (.eq subject v) ↔
        layout.Passes (layout.perform calls).2 item.key ⟨subject, .ge, [v]⟩ ∧
          layout.Passes (layout.perform calls).2 item.key ⟨subject, .le, [v]⟩ ∧
            (value.kind = .number → v = value)) := by
  have hmirrors := mirrors_perform layout calls
  have hread : (layout.perform calls).2.attribute? item.key subject = some value := by
    rw [Table.attribute?, (Table.find?_eq_some_iff hmirrors.items item).mpr hitem]
    exact hvalue
  obtain ⟨text, htext⟩ := hmirrors.sortable item.key subject value hindexed hread
  obtain ⟨m, hm, -⟩ := hasMagnitude_of_sortText htext
  exact ⟨fun condition => guardAgrees hmirrors hitem hindexed hsubject hvalue hm,
    fun v => passes_eq_iff hmirrors hitem hsubject hvalue hm⟩

/-- Among values of two kinds, a number that lies within bounds that are spelled otherwise. -/
theorem guards_agree_with_ranges_between :
    ∃ (layout : Layout) (calls : List Call) (item other : Item) (condition : Condition)
      (pages : List QueryPage),
      (layout.perform calls).2.items = [item, other] ∧
        condition = ⟨"n", .between, [.number "1", .number "2"]⟩ ∧
        item.get? "n" = some (.number "1.0") ∧ other.get? "n" = some (.text "2") ∧
        Followed layout (layout.perform calls).2 (condition.rangeAround item true) (fun _ => none)
          0 none pages ∧
        item ∈ pages.flatMap (·.items) ∧
        layout.Passes (layout.perform calls).2 item.key condition := by
  let layout : Layout := ⟨["n"], "pk", "sk", none⟩
  let item : Item := ⟨⟨"k", "a"⟩, [("n", .number "1.0")]⟩
  let other : Item := ⟨⟨"k", "b"⟩, [("n", .text "2")]⟩
  let calls : List Call := [.update item.key item.attributes [],
    .update other.key other.attributes []]
  let condition : Condition := ⟨"n", .between, [.number "1", .number "2"]⟩
  have hpage : layout.query (layout.perform calls).2
      ((condition.rangeAround item true).next none none) = .ok ⟨[item], 1, none⟩ := by
    simp only [Layout.query, sortRows_eq_insertionSort, layout, item, other, calls, condition]
    rfl
  have hpages : Followed layout (layout.perform calls).2 (condition.rangeAround item true)
      (fun _ => none) 0 none [⟨[item], 1, none⟩] := .last hpage rfl
  have hrange : condition.IsRange (Value.number "1.0").kind :=
    ⟨⟨rfl, _, .number (d := .finite false 1 0) rfl fun _ => by decide⟩,
      rfl, _, .number (d := .finite false 2 0) rfl fun _ => by decide⟩
  have hitem : item ∈ (layout.perform calls).2.items := List.mem_cons_self ..
  have hagrees := (guards_agree_with_ranges layout calls hitem (List.mem_cons_self ..)
    ⟨by decide, by decide, by decide⟩ rfl).1 condition rfl hrange
  have hmem : item ∈ [(⟨[item], 1, none⟩ : QueryPage)].flatMap (·.items) := List.mem_cons_self ..
  exact ⟨layout, calls, item, other, condition, _, rfl, rfl, rfl, rfl, hpages, hmem,
    (hagrees.contained true (fun _ => none) _ (fun _ => trivial) hpages fun hop => by
      cases hop).mpr hmem⟩

/-- A number is in the range that one bounds that is spelled otherwise, and lies on both sides of
it, but a guard tells the two apart. -/
theorem guard_spelled_otherwise :
    ∃ (layout : Layout) (calls : List Call) (item : Item) (v : Value) (pages : List QueryPage),
      let table := (layout.perform calls).2
      let condition := Condition.eq "n" v
      layout.IsAttribute "n" ∧ "n" ∈ layout.indexed ∧ item ∈ table.items ∧
        item.get? "n" = some (.number "1.0") ∧ condition.IsRange .number ∧
        Followed layout table (condition.rangeAround item true) (fun _ => none) 0 none pages ∧
        item ∈ pages.flatMap (·.items) ∧
        layout.write table (.delete item.key [condition]) =
          (.error (.conditionFailed (.condition .eq "n" item.key)), table) ∧
        ¬layout.Passes table item.key condition ∧
        layout.Passes table item.key ⟨"n", .ge, [v]⟩ ∧
        layout.Passes table item.key ⟨"n", .le, [v]⟩ := by
  let layout : Layout := ⟨["n"], "pk", "sk", none⟩
  let item : Item := ⟨⟨"k", "a"⟩, [("n", .number "1.0")]⟩
  let calls : List Call := [.update item.key item.attributes []]
  let v : Value := .number "1"
  have hmirrors := mirrors_perform layout calls
  have hpage : layout.query (layout.perform calls).2
      (((Condition.eq "n" v).rangeAround item true).next none none) = .ok ⟨[item], 1, none⟩ := by
    simp only [Layout.query, sortRows_eq_insertionSort, layout, item, calls, v]
    rfl
  have hoperand : v.IsOperand .number :=
    ⟨rfl, _, .number (d := .finite false 1 0) rfl fun _ => by decide⟩
  have hbarred : layout.write (layout.perform calls).2 (.delete item.key [.eq "n" v]) =
      (.error (.conditionFailed (.condition .eq "n" item.key)), (layout.perform calls).2) := rfl
  have hsides : ∀ op, op = .ge ∨ op = .le →
      layout.Passes (layout.perform calls).2 item.key ⟨"n", op, [v]⟩ := by
    intro op hop
    have hholds : Condition.holds ⟨"n", op, [v]⟩
        (layout.subject (layout.perform calls).2 item.key ⟨"n", op, [v]⟩) = .ok true := by
      rcases hop with rfl | rfl <;> rfl
    have hfind : (layout.perform calls).2.find? item.key = some item := rfl
    exact (Layout.passes_iff hmirrors.isOpen hfind hholds).mpr ⟨by decide, rfl⟩
  refine ⟨layout, calls, item, v, _, ⟨by decide, by decide, by decide⟩, List.mem_cons_self ..,
    List.mem_cons_self .., rfl, hoperand, .last hpage rfl, List.mem_cons_self .., hbarred,
    fun hpasses => ?_, hsides .ge (.inl rfl), hsides .le (.inr rfl)⟩
  cases (Prod.mk.inj (hpasses.delete.symm.trans hbarred)).1

end RankedTable
