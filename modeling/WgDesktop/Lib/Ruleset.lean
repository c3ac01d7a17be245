import WgDesktop.Lib.Nft

/-!
# Rulesets

The tables of a kernel and the netlink messages that change them. A batch is applied as a whole or
not at all. `grown_of_rules` says what a batch of rules does to the chains of a table: each chain
keeps its name, hook, priority and policy, and the rules addressed to it are appended.
-/

namespace Nft

open Bytes

inductive TableFamily where
  | inet
  | ipv4
  | ipv6
  | arp
  | netdev
  | bridge
  deriving DecidableEq, Repr

def TableFamily.all : List TableFamily := [.inet, .ipv4, .ipv6, .arp, .netdev, .bridge]

structure TableName where
  family : TableFamily
  name : String
  deriving DecidableEq, Repr

/-- A table: its chains, its named sets and the last rule handle it gave out. -/
structure Table where
  chains : List Chain
  sets : String → Option NamedSet
  handles : ℕ

abbrev Ruleset := TableName → Option Table

inductive Message where
  | newTable (table : TableName)
  | delTable (table : TableName)
  | newChain (table : TableName) (chain : Chain)
  | newSet (table : TableName) (set : String) (keyLength : ℕ)
  | newRule (table : TableName) (chain : String) (exprs : List Expr)
  | newSetElem (table : TableName) (set : String) (key : List Byte)
  | delSetElem (table : TableName) (set : String) (key : List Byte)
  deriving DecidableEq, Repr

/-! ## Changes to a table -/

namespace Table

def empty : Table := ⟨[], fun _ => none, 0⟩

def hasChain (tb : Table) (name : String) : Bool := tb.chains.any fun c => c.name == name

/-- A chain that exists is left as it is. -/
def addChain (tb : Table) (c : Chain) : Table :=
  if tb.hasChain c.name then tb else { tb with chains := tb.chains ++ [c] }

def addSet (tb : Table) (name : String) (keyLength : ℕ) : Table :=
  if (tb.sets name).isSome then tb
  else { tb with sets := Function.update tb.sets name (some ⟨keyLength, []⟩) }

/-- Rules are appended, under a fresh handle. -/
def appendRule (tb : Table) (name : String) (es : List Expr) : Table :=
  { tb with
    chains := tb.chains.map fun c =>
      if c.name = name then { c with rules := c.rules ++ [⟨tb.handles + 1, es⟩] } else c
    handles := tb.handles + 1 }

def addRule (tb : Table) (name : String) (es : List Expr) : Option Table :=
  if tb.hasChain name then some (tb.appendRule name es) else none

/-- Adding an element that is there already succeeds and changes nothing. -/
def addElement (tb : Table) (name : String) (key : List Byte) : Option Table :=
  match tb.sets name with
  | some ns =>
    if key.length = ns.keyLength then
      let elements := if ns.elements.contains key then ns.elements else ns.elements ++ [key]
      some { tb with sets := Function.update tb.sets name (some { ns with elements := elements }) }
    else none
  | none => none

/-- Removing an element that is not there fails. -/
def delElement (tb : Table) (name : String) (key : List Byte) : Option Table :=
  match tb.sets name with
  | some ns =>
    if ns.elements.contains key then
      let elements := ns.elements.filter fun k => k ≠ key
      some { tb with sets := Function.update tb.sets name (some { ns with elements := elements }) }
    else none
  | none => none

/-- The chains at a hook, lowest priority first. -/
def hookChains (tb : Table) (hook : Hook) : List Chain :=
  (tb.chains.filter fun c => c.hook = hook).insertionSort fun c d => c.priority ≤ d.priority

end Table

/-! ## Batches -/

namespace Ruleset

def modify (rs : Ruleset) (t : TableName) (f : Table → Option Table) : Option Ruleset :=
  match rs t with
  | some tb => (f tb).map fun tb' => Function.update rs t (some tb')
  | none => none

/-- One message; `none` when what it names does not exist. -/
def apply (rs : Ruleset) : Message → Option Ruleset
  | .newTable t => some (Function.update rs t (some ((rs t).getD Table.empty)))
  | .delTable t => if (rs t).isSome then some (Function.update rs t none) else none
  | .newChain t c => rs.modify t fun tb => some (tb.addChain c)
  | .newSet t set n => rs.modify t fun tb => some (tb.addSet set n)
  | .newRule t c es => rs.modify t fun tb => tb.addRule c es
  | .newSetElem t set key => rs.modify t fun tb => tb.addElement set key
  | .delSetElem t set key => rs.modify t fun tb => tb.delElement set key

def applyAll (rs : Ruleset) (msgs : List Message) : Option Ruleset := msgs.foldlM apply rs

end Ruleset

theorem applyAll_delTables {ts : List TableName} {rs rs' : Ruleset}
    (h : rs.applyAll (ts.map .delTable) = some rs') (t : TableName) :
    rs' t = if t ∈ ts then none else rs t := by
  induction ts generalizing rs with
  | nil =>
    obtain rfl : rs = rs' := by simpa [Ruleset.applyAll] using h
    simp
  | cons u ts ih =>
    rw [List.map_cons, Ruleset.applyAll, List.foldlM_cons, Option.bind_eq_bind,
      Option.bind_eq_some_iff] at h
    obtain ⟨mid, hmid, hrest⟩ := h
    simp only [Ruleset.apply] at hmid
    split_ifs at hmid with hsome
    obtain rfl := Option.some.inj hmid
    rw [ih hrest]
    by_cases htu : t = u
    · simp [htu]
    · simp [htu]

/-! ## Elements -/

/-- The tables differ in the elements of their sets only. -/
structure SameShape (tb tb' : Table) : Prop where
  chains : tb'.chains = tb.chains
  keyLength : ∀ n, (tb'.sets n).map NamedSet.keyLength = (tb.sets n).map NamedSet.keyLength

/-- The elements of a named set. -/
def Table.elements (tb : Table) (name : String) : List (List Byte) :=
  ((tb.sets name).map NamedSet.elements).getD []

section Elements

variable {tb tb' : Table} {name : String} {key : List Byte}

theorem sameShape_update {ns : NamedSet} (hns : tb.sets name = some ns)
    (elements : List (List Byte)) :
    SameShape tb { tb with
      sets := Function.update tb.sets name (some { ns with elements := elements }) } := by
  refine ⟨rfl, fun n => ?_⟩
  by_cases h : n = name
  · subst h
    simp [hns]
  · simp [h]

theorem elements_update {ns : NamedSet} (elements : List (List Byte)) (n : String) :
    Table.elements { tb with
      sets := Function.update tb.sets name (some { ns with elements := elements }) } n =
      if n = name then elements else tb.elements n := by
  by_cases h : n = name
  · subst h
    simp [Table.elements]
  · simp [Table.elements, h]

/-- **Adding.** The key joins its set. -/
theorem addElement_spec (h : tb.addElement name key = some tb') :
    SameShape tb tb' ∧
      ∀ n k, k ∈ tb'.elements n ↔ k ∈ tb.elements n ∨ (n = name ∧ k = key) := by
  unfold Table.addElement at h
  cases hns : tb.sets name with
  | none => simp [hns] at h
  | some ns =>
    simp only [hns] at h
    split_ifs at h with hlen hmem
    · obtain rfl := Option.some.inj h
      refine ⟨sameShape_update hns _, fun n k => ?_⟩
      rw [elements_update]
      by_cases hn : n = name
      · subst hn
        simp only [if_true, true_and, Table.elements, hns, Option.map_some, Option.getD_some]
        exact ⟨Or.inl, fun h => h.elim id fun hk => hk ▸ List.contains_iff_mem.mp hmem⟩
      · simp [hn]
    · obtain rfl := Option.some.inj h
      refine ⟨sameShape_update hns _, fun n k => ?_⟩
      rw [elements_update]
      by_cases hn : n = name
      · subst hn
        simp [Table.elements, hns]
      · simp [hn]

/-- **Removing.** The key leaves its set. -/
theorem delElement_spec (h : tb.delElement name key = some tb') :
    SameShape tb tb' ∧
      ∀ n k, k ∈ tb'.elements n ↔ k ∈ tb.elements n ∧ ¬(n = name ∧ k = key) := by
  unfold Table.delElement at h
  cases hns : tb.sets name with
  | none => simp [hns] at h
  | some ns =>
    simp only [hns] at h
    split_ifs at h with hmem
    obtain rfl := Option.some.inj h
    refine ⟨sameShape_update hns _, fun n k => ?_⟩
    rw [elements_update]
    by_cases hn : n = name
    · subst hn
      simp [Table.elements, hns]
    · simp [hn]

theorem exists_addElement (h : (tb.sets name).map NamedSet.keyLength = some key.length) :
    ∃ tb', tb.addElement name key = some tb' := by
  obtain ⟨ns, hns, hlen⟩ := Option.map_eq_some_iff.mp h
  simp only [Table.addElement, hns, hlen]
  exact ⟨_, rfl⟩

theorem exists_delElement (h : key ∈ tb.elements name) :
    ∃ tb', tb.delElement name key = some tb' := by
  cases hns : tb.sets name with
  | none => simp [Table.elements, hns] at h
  | some ns =>
    have hmem : ns.elements.contains key = true := by simpa [Table.elements, hns] using h
    simp only [Table.delElement, hns, if_pos hmem]
    exact ⟨_, rfl⟩

end Elements

/-! ## Growing chains -/

/-- Rules with the chains they are addressed to. -/
abbrev Additions := List (String × List Expr)

/-- The rules addressed to a chain. -/
def Additions.of (rules : Additions) (name : String) : List (List Expr) :=
  (rules.filter fun r => r.1 = name).map Prod.snd

def Additions.messages (rules : Additions) (t : TableName) : List Message :=
  rules.map fun r => .newRule t r.1 r.2

theorem Additions.of_append (rules rules' : Additions) (name : String) :
    Additions.of (rules ++ rules') name = rules.of name ++ rules'.of name := by
  simp [Additions.of]

theorem Additions.messages_append (rules rules' : Additions) (t : TableName) :
    Additions.messages (rules ++ rules') t = rules.messages t ++ rules'.messages t :=
  List.map_append

/-- `c'` is `c` with the rules that `rules` addresses to it. -/
structure Grown (rules : Additions) (c c' : Chain) : Prop where
  name : c'.name = c.name
  hook : c'.hook = c.hook
  priority : c'.priority = c.priority
  policy : c'.policy = c.policy
  exprs : c'.exprs = c.exprs ++ rules.of c.name

theorem Grown.refl (c : Chain) : Grown [] c c :=
  ⟨rfl, rfl, rfl, rfl, by simp [Additions.of]⟩

theorem Grown.trans {rules rules' : Additions} {c c' c'' : Chain} (h : Grown rules c c')
    (h' : Grown rules' c' c'') : Grown (rules ++ rules') c c'' where
  name := h'.name.trans h.name
  hook := h'.hook.trans h.hook
  priority := h'.priority.trans h.priority
  policy := h'.policy.trans h.policy
  exprs := by
    rw [h'.exprs, h.exprs, h.name, List.append_assoc, Additions.of_append]

theorem grown_forall₂_trans {rules rules' : Additions} {cs cs' cs'' : List Chain}
    (h : List.Forall₂ (Grown rules) cs cs') (h' : List.Forall₂ (Grown rules') cs' cs'') :
    List.Forall₂ (Grown (rules ++ rules')) cs cs'' := by
  induction h generalizing cs'' with
  | nil =>
    cases h'
    exact .nil
  | cons hc _ ih =>
    cases h' with
    | cons hc' htail => exact .cons (hc.trans hc') (ih htail)

theorem grown_appendRule (tb : Table) (name : String) (es : List Expr) :
    List.Forall₂ (Grown [(name, es)]) tb.chains (tb.appendRule name es).chains := by
  unfold Table.appendRule
  rw [List.forall₂_map_right_iff, List.forall₂_same]
  intro c _
  by_cases h : c.name = name
  · rw [if_pos h]
    exact ⟨rfl, rfl, rfl, rfl, by simp [Chain.exprs, Additions.of, h]⟩
  · rw [if_neg h]
    exact ⟨rfl, rfl, rfl, rfl, by simp [Additions.of, Ne.symm h]⟩

/-- **Growth.** A batch of rules appends each rule to its chain and leaves the sets alone. -/
theorem grown_of_rules {t : TableName} {rules : Additions} {rs rs' : Ruleset} {tb : Table}
    (ht : rs t = some tb) (h : rs.applyAll (rules.messages t) = some rs') :
    ∃ tb', rs' t = some tb' ∧ tb'.sets = tb.sets ∧
      List.Forall₂ (Grown rules) tb.chains tb'.chains := by
  induction rules generalizing rs tb with
  | nil =>
    obtain rfl : rs = rs' := by simpa [Additions.messages, Ruleset.applyAll] using h
    exact ⟨tb, ht, rfl, List.forall₂_same.mpr fun c _ => Grown.refl c⟩
  | cons r rules ih =>
    rw [Additions.messages, List.map_cons, Ruleset.applyAll, List.foldlM_cons,
      Option.bind_eq_bind, Option.bind_eq_some_iff] at h
    obtain ⟨mid, hmid, hrest⟩ := h
    simp only [Ruleset.apply, Ruleset.modify, ht, Table.addRule] at hmid
    split_ifs at hmid with hchain
    · obtain rfl := Option.some.inj hmid
      have hmid : Function.update rs t (some (tb.appendRule r.1 r.2)) t =
          some (tb.appendRule r.1 r.2) := Function.update_self ..
      obtain ⟨tb', htb', hsets, hgrown⟩ := ih hmid hrest
      exact ⟨tb', htb', hsets, grown_forall₂_trans (grown_appendRule tb r.1 r.2) hgrown⟩
    · simp at hmid

theorem hasChain_appendRule (tb : Table) (name : String) (es : List Expr) (n : String) :
    (tb.appendRule name es).hasChain n = tb.hasChain n := by
  unfold Table.appendRule Table.hasChain
  rw [List.any_map]
  congr 1
  funext c
  by_cases h : c.name = name
  · simp [h]
  · simp [h]

theorem exists_grown {rules : Additions} {cs cs' : List Chain}
    (h : List.Forall₂ (Grown rules) cs cs') {c : Chain} (hc : c ∈ cs) :
    ∃ c' ∈ cs', Grown rules c c' := by
  induction h with
  | nil => simp at hc
  | @cons d d' _ _ hd _ ih =>
    rcases List.mem_cons.mp hc with rfl | hc
    · exact ⟨d', by simp, hd⟩
    · obtain ⟨c', hc', hgrown⟩ := ih hc
      exact ⟨c', by simp [hc'], hgrown⟩

theorem hasChain_of_grown {rules : Additions} {cs : List Chain} {tb : Table}
    (h : List.Forall₂ (Grown rules) cs tb.chains) {c : Chain} (hc : c ∈ cs) :
    tb.hasChain c.name = true := by
  obtain ⟨c', hc', hgrown⟩ := exists_grown h hc
  exact List.any_eq_true.mpr ⟨c', hc', by simp [hgrown.name]⟩

theorem applyAll_rules_isSome {t : TableName} {rules : Additions} {rs : Ruleset} {tb : Table}
    (ht : rs t = some tb) (h : ∀ r ∈ rules, tb.hasChain r.1 = true) :
    (rs.applyAll (rules.messages t)).isSome = true := by
  induction rules generalizing rs tb with
  | nil => rfl
  | cons r rules ih =>
    obtain ⟨hr, hrules⟩ := List.forall_mem_cons.mp h
    have hmid : rs.apply (.newRule t r.1 r.2) =
        some (Function.update rs t (some (tb.appendRule r.1 r.2))) := by
      simp [Ruleset.apply, Ruleset.modify, ht, Table.addRule, hr]
    rw [Additions.messages, List.map_cons, Ruleset.applyAll, List.foldlM_cons, hmid]
    refine ih (Function.update_self ..) fun r' hr' => ?_
    rw [hasChain_appendRule, hrules r' hr']

end Nft
