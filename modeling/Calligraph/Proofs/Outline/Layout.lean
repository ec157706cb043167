import Mathlib.Data.List.TakeDrop
import Mathlib.Data.List.TakeWhile
import Calligraph.Outline
import Calligraph.Proofs.Arena.Levels

/-!
# The layout of an outline

The rows of an outline are its lines that are not blank. A row is placed below the last row before
it that is less deep (`LastShallower`). The stack of rows that another row may be below answers for
all rows so far (`Growth.Holds`): what a new row drops from the stack is at least as deep as the new
row, which comes later. So reading the rows one after the other gives their layout, and stops at the
first row that does not open with one of the words (`parse_layout`).
-/

namespace Calligraph.Outline

/-! ## Rows -/

/-- A line and its number. -/
structure Row where
  number : Nat
  text : List Char
deriving DecidableEq

namespace Row

def IsBlank (r : Row) : Prop :=
  ∀ c ∈ r.text, Text.isBlank c = true

instance (r : Row) : Decidable r.IsBlank :=
  decidable_of_iff (r.text.all Text.isBlank = true) List.all_eq_true

/-- The line behind its indent. -/
def content (r : Row) : List Char :=
  Text.trimStart r.text

/-- The bytes of the blanks that the line starts with. -/
def indent (r : Row) : Nat :=
  (String.ofList (r.text.takeWhile Text.isBlank)).utf8ByteSize

def depth (r : Row) : Nat :=
  r.indent / 2

def position (r : Row) : Position :=
  ⟨r.number, r.indent⟩

/-- The line stands for something. -/
def Opens (r : Row) : Prop :=
  ∃ word ∈ ["decl", "call", "ctor", "mod"], word.toList ++ [' '] <+: r.content

instance (r : Row) : Decidable r.Opens :=
  inferInstanceAs (Decidable (∃ word ∈ ["decl", "call", "ctor", "mod"], _))

/-- What is wrong with a line that stands for nothing. -/
def fault (r : Row) : Fault :=
  .malformed r.position ("unexpected `" ++ String.ofList r.content ++ "`")

theorem isBlank_iff {r : Row} : r.IsBlank ↔ r.content = [] :=
  List.dropWhile_eq_nil_iff.symm

/-- The indent is what the content is shorter by. -/
theorem sub_content (r : Row) :
    (String.ofList r.text).utf8ByteSize - (String.ofList (Text.trimStart r.text)).utf8ByteSize =
      r.indent := by
  have hsize : (String.ofList r.text).utf8ByteSize =
      r.indent + (String.ofList (Text.trimStart r.text)).utf8ByteSize := by
    rw [indent, Text.trimStart, ← String.utf8ByteSize_append, ← String.ofList_append,
      List.takeWhile_append_dropWhile]
  rw [hsize, Nat.add_sub_cancel]

end Row

theorem Row.opens_of_entry {r : Row} {e : Entry} (h : entry? r.content = some e) : r.Opens := by
  have hsplit := List.takeWhile_append_dropWhile (p := (· ≠ ' ')) (l := r.content)
  unfold entry? at h
  rw [List.span_eq_takeWhile_dropWhile] at h
  cases hrest : r.content.dropWhile (· ≠ ' ') with
  | nil => rw [hrest] at h; cases h
  | cons blank name =>
    have hblank : blank = ' ' := by
      have hhead := List.find?_not_eq_head?_dropWhile (· ≠ ' ') r.content
      rw [hrest] at hhead
      simpa using List.find?_some hhead
    rw [hrest, hblank] at hsplit
    have hword : ∀ word, String.ofList (r.content.takeWhile (· ≠ ' ')) = word →
        word.toList ++ [' '] <+: r.content := by
      rintro _ rfl
      exact ⟨name, by simpa using hsplit⟩
    rw [hrest] at h
    dsimp only at h
    split at h
    · next heq => exact ⟨"decl", by decide, hword _ heq⟩
    · next heq _ => exact ⟨"call", by decide, hword _ heq⟩
    · next heq _ => exact ⟨"call", by decide, hword _ heq⟩
    · next heq => exact ⟨"ctor", by decide, hword _ heq⟩
    · next heq => exact ⟨"mod", by decide, hword _ heq⟩
    · cases h

theorem Row.Opens.exists_entry {r : Row} (h : r.Opens) : ∃ e, entry? r.content = some e := by
  obtain ⟨word, hword, name, hname⟩ := h
  rw [List.append_assoc] at hname
  rw [← hname]
  simp only [List.mem_cons, List.not_mem_nil, or_false] at hword
  rcases hword with rfl | rfl | rfl | rfl
  · exact ⟨.routine (String.ofList name), rfl⟩
  · by_cases hnobody : String.ofList name = "?"
    · exact ⟨.call none, by simp [ entry?, hnobody]⟩
    · exact ⟨.call (some (String.ofList name)), by simp [ entry?]⟩
  · exact ⟨.construct (String.ofList name), rfl⟩
  · exact ⟨.module, rfl⟩

/-- The lines of a text that are not blank. -/
def rows (text : String) : List Row :=
  ((lines text.toList).mapIdx fun i line => (⟨i + 1, line⟩ : Row)).filter fun r => ¬ r.IsBlank

/-! ## Where a row is placed -/

/-- `node` is that of the last row that is less deep than `depth`, or the root if there is none. The
node of row `k` is `k + 1`. -/
inductive LastShallower (rows : List Row) (depth : Nat) : Nat → Prop
  | root : (∀ q ∈ rows, depth ≤ q.depth) → LastShallower rows depth 0
  | row {k : Nat} {r : Row} : rows[k]? = some r → r.depth < depth →
      (∀ q ∈ rows.drop (k + 1), depth ≤ q.depth) → LastShallower rows depth (k + 1)

namespace LastShallower

variable {rows : List Row} {r : Row} {depth node : Nat}

theorem le_length (h : LastShallower rows depth node) : node ≤ rows.length := by
  cases h with
  | root => exact Nat.zero_le _
  | row hr => exact (List.getElem?_eq_some_iff.1 hr).1

theorem concat_of_lt (hr : r.depth < depth) :
    LastShallower (rows ++ [r]) depth node ↔ rows.length + 1 = node := by
  constructor
  · intro h
    cases h with
    | root hall =>
      have := hall r (by simp)
      omega
    | row hq _ hafter =>
      rcases getElem?_concat_eq_some_iff.1 hq with hq | ⟨rfl, -⟩
      · obtain ⟨hk, -⟩ := List.getElem?_eq_some_iff.1 hq
        have := hafter r (by simp [List.drop_append_of_le_length hk])
        omega
      · rfl
  · rintro rfl
    exact .row List.getElem?_concat_length hr (by simp)

theorem concat_of_le (hr : depth ≤ r.depth) :
    LastShallower (rows ++ [r]) depth node ↔ LastShallower rows depth node := by
  constructor
  · intro h
    cases h with
    | root hall => exact .root fun q hq => hall q (List.mem_append_left _ hq)
    | row hq hlt hafter =>
      rcases getElem?_concat_eq_some_iff.1 hq with hq | ⟨-, rfl⟩
      · obtain ⟨hk, -⟩ := List.getElem?_eq_some_iff.1 hq
        rw [List.drop_append_of_le_length hk] at hafter
        exact .row hq hlt fun q hq => hafter q (List.mem_append_left _ hq)
      · omega
  · intro h
    cases h with
    | root hall => exact .root (List.forall_mem_append.2 ⟨hall, by simpa using hr⟩)
    | row hq hlt hafter =>
      obtain ⟨hk, -⟩ := List.getElem?_eq_some_iff.1 hq
      refine .row (getElem?_concat_eq_some_iff.2 (.inl hq)) hlt ?_
      rw [List.drop_append_of_le_length hk]
      exact List.forall_mem_append.2 ⟨hafter, by simpa using hr⟩

theorem unique {other : Nat} (h : LastShallower rows depth node)
    (h' : LastShallower rows depth other) : node = other := by
  induction rows using List.reverseRecOn with
  | nil => exact (Nat.le_zero.1 h.le_length).trans (Nat.le_zero.1 h'.le_length).symm
  | append_singleton rows r ih =>
    rcases Nat.lt_or_ge r.depth depth with hlt | hle
    · exact ((concat_of_lt hlt).1 h).symm.trans ((concat_of_lt hlt).1 h')
    · exact ih ((concat_of_le hle).1 h) ((concat_of_le hle).1 h')

end LastShallower

/-- The addition that a row makes behind earlier rows. -/
structure Row.Makes (r : Row) (earlier : List Row) (x : Addition Entry) : Prop where
  entry : entry? r.content = some x.payload
  kind : x.kind = x.payload.kind
  position : x.position = r.position
  parent : LastShallower earlier r.depth x.parent

/-- The additions that rows make one after the other. -/
inductive Makes : List Row → List (Addition Entry) → Prop
  | nil : Makes [] []
  | concat {rows : List Row} {xs : List (Addition Entry)} {r : Row} {x : Addition Entry} :
      Makes rows xs → r.Makes rows x → Makes (rows ++ [r]) (xs ++ [x])

namespace Makes

variable {rows : List Row} {xs : List (Addition Entry)}

theorem length_eq (h : Makes rows xs) : xs.length = rows.length := by
  induction h with
  | nil => rfl
  | concat _ _ ih => rw [List.length_append, List.length_append, ih]; rfl

theorem exists_addition (h : Makes rows xs) {i : Nat} {r : Row} (hr : rows[i]? = some r) :
    ∃ x, xs[i]? = some x ∧ r.Makes (rows.take i) x := by
  induction h with
  | nil => cases hr
  | @concat rows xs last x hxs hx ih =>
    rcases getElem?_concat_eq_some_iff.1 hr with hr | ⟨rfl, rfl⟩
    · obtain ⟨hi, -⟩ := List.getElem?_eq_some_iff.1 hr
      obtain ⟨y, hy, hmade⟩ := ih hr
      refine ⟨y, getElem?_concat_eq_some_iff.2 (.inl hy), ?_⟩
      rwa [List.take_append_of_le_length (Nat.le_of_lt hi)]
    · refine ⟨x, getElem?_concat_eq_some_iff.2 (.inr ⟨hxs.length_eq.symm, rfl⟩), ?_⟩
      rwa [List.take_left]

end Makes

/-! ## Adding a row -/

namespace Growth

variable {g : Growth} {r : Row} {e : Entry}

/-- The node that a row of this depth would be below. -/
def parent (g : Growth) (depth : Nat) : Nat :=
  ((g.above.find? fun x => x.1 < depth).map Prod.snd).getD 0

/-- The growth with one more row. -/
def sow (g : Growth) (r : Row) (e : Entry) : Growth where
  arena := g.arena.add ⟨g.parent r.depth, e.kind, r.position, e⟩
  above := (r.depth, g.arena.size) :: g.above.dropWhile fun x => r.depth ≤ x.1

def addRow (g : Growth) (r : Row) : Except Fault Growth :=
  g.add r.number r.text

theorem addRow_of_isBlank (h : r.IsBlank) : g.addRow r = .ok g := by
  have hcontent : Text.trimStart r.text = [] := Row.isBlank_iff.1 h
  rw [addRow, add, hcontent]
  rfl

/-- The first row on the stack that a new row leaves there is the last one less deep. -/
theorem parent_eq (g : Growth) (depth : Nat) :
    g.parent depth = ((g.above.dropWhile fun x => depth ≤ x.1).head?.map Prod.snd).getD 0 := by
  rw [parent, ← List.find?_not_eq_head?_dropWhile]
  simp only [← decide_not, Nat.not_le]

theorem addRow_of_entry (h : entry? r.content = some e) : g.addRow r = .ok (g.sow r e) := by
  have hcontent : (Text.trimStart r.text).isEmpty = false := by
    cases hnil : Text.trimStart r.text with
    | nil => rw [Row.content, hnil] at h; cases h
    | cons => rfl
  rw [Row.content] at h
  rw [addRow, add, sow, parent_eq]
  simp only [hcontent, r.sub_content, h]
  rfl

theorem addRow_of_not_opens (hblank : ¬ r.IsBlank) (h : ¬ r.Opens) :
    g.addRow r = .error r.fault := by
  have hnone : entry? (Text.trimStart r.text) = none := by
    cases hentry : entry? (Text.trimStart r.text) with
    | none => rfl
    | some e => exact absurd (Row.opens_of_entry hentry) h
  have hcontent : (Text.trimStart r.text).isEmpty = false :=
    List.isEmpty_eq_false_iff.2 (mt Row.isBlank_iff.2 hblank)
  rw [addRow, add]
  simp only [hcontent, r.sub_content, hnone]
  rfl

/-- The rows that a new one drops from the stack are as deep as the new one, which answers first. -/
theorem parent_sow (g : Growth) (r : Row) (e : Entry) (depth : Nat) :
    (g.sow r e).parent depth = if r.depth < depth then g.arena.size else g.parent depth := by
  rw [parent, sow, List.find?_cons]
  by_cases hdepth : r.depth < depth
  · simp [hdepth]
  · have hdropped : (g.above.takeWhile fun x => r.depth ≤ x.1).find? (fun x => x.1 < depth) =
        none := by
      refine List.find?_eq_none.2 fun x hx => ?_
      have hle : r.depth ≤ x.1 := by simpa using List.mem_takeWhile_imp hx
      simpa using Nat.le_trans (Nat.le_of_not_lt hdepth) hle
    have hfind : g.above.find? (fun x => x.1 < depth) =
        (g.above.dropWhile fun x => r.depth ≤ x.1).find? fun x => x.1 < depth := by
      conv_lhs => rw [← List.takeWhile_append_dropWhile (l := g.above), List.find?_append, hdropped,
        Option.none_or]
    simp [hdepth, parent, hfind]

/-- What is known after some rows: the stack answers for all of them, and the tree is that of their
additions. -/
structure Holds (g : Growth) (rows : List Row) : Prop where
  parent : ∀ depth node, LastShallower rows depth node ↔ g.parent depth = node
  arena : ∃ xs, Makes rows xs ∧ g.arena = (Arena.new .root).addAll xs

theorem holds_nil : ({} : Growth).Holds [] where
  parent depth node := by
    constructor
    · intro h
      exact (Nat.le_zero.1 h.le_length).symm
    · rintro rfl
      exact .root (by simp)
  arena := ⟨[], .nil, rfl⟩

theorem Holds.size_arena {rows : List Row} (h : g.Holds rows) : g.arena.size = rows.length + 1 := by
  obtain ⟨xs, hxs, harena⟩ := h.arena
  rw [harena, Arena.size_addAll, hxs.length_eq]

theorem Holds.sow {rows : List Row} (h : g.Holds rows) (he : entry? r.content = some e) :
    (g.sow r e).Holds (rows ++ [r]) where
  parent depth node := by
    rw [parent_sow, h.size_arena]
    split
    · next hlt => exact LastShallower.concat_of_lt hlt
    · next hlt =>
      exact (LastShallower.concat_of_le (Nat.le_of_not_lt hlt)).trans (h.parent depth node)
  arena := by
    obtain ⟨xs, hxs, harena⟩ := h.arena
    refine ⟨_, hxs.concat (x := ⟨g.parent r.depth, e.kind, r.position, e⟩)
      ⟨he, rfl, rfl, (h.parent r.depth _).2 rfl⟩, ?_⟩
    rw [Arena.addAll_concat, ← harena]
    rfl

/-! ## Adding rows -/

theorem Holds.foldlM {done rows : List Row} (h : g.Holds done) (hopens : ∀ r ∈ rows, r.Opens) :
    ∃ g', rows.foldlM addRow g = .ok g' ∧ g'.Holds (done ++ rows) := by
  induction rows generalizing g done with
  | nil => exact ⟨g, rfl, by rwa [List.append_nil]⟩
  | cons r rest ih =>
    obtain ⟨hr, hrest⟩ := List.forall_mem_cons.1 hopens
    obtain ⟨e, he⟩ := hr.exists_entry
    obtain ⟨g', hrun, hg'⟩ := ih (h.sow he) hrest
    refine ⟨g', ?_, by rwa [List.append_assoc] at hg'⟩
    rw [List.foldlM_cons, addRow_of_entry he]
    exact hrun

theorem foldlM_of_not_opens {before after : List Row} {bad : Row}
    (hbefore : ∀ r ∈ before, r.Opens) (hblank : ¬ bad.IsBlank) (hbad : ¬ bad.Opens) (g : Growth) :
    (before ++ bad :: after).foldlM addRow g = .error bad.fault := by
  induction before generalizing g with
  | nil =>
    rw [List.nil_append, List.foldlM_cons, addRow_of_not_opens hblank hbad]
    rfl
  | cons r rest ih =>
    obtain ⟨hr, hrest⟩ := List.forall_mem_cons.1 hbefore
    obtain ⟨e, he⟩ := hr.exists_entry
    rw [List.cons_append, List.foldlM_cons, addRow_of_entry he]
    exact ih hrest _

theorem foldlM_filter (rows : List Row) (g : Growth) :
    (rows.filter fun r => ¬ r.IsBlank).foldlM addRow g = rows.foldlM addRow g := by
  induction rows generalizing g with
  | nil => rfl
  | cons r rest ih =>
    by_cases hblank : r.IsBlank
    · rw [List.filter_cons_of_neg (by simpa using hblank), List.foldlM_cons,
        addRow_of_isBlank hblank]
      exact ih g
    · rw [List.filter_cons_of_pos (by simpa using hblank), List.foldlM_cons, List.foldlM_cons]
      congr 1
      funext g'
      exact ih g'

end Growth

/-- The tree of a text is grown from its rows. -/
theorem parse_eq (text : String) :
    parse text = ((rows text).foldlM Growth.addRow {}).map Growth.arena := by
  have hlines : ((lines text.toList).mapIdx fun i line => (⟨i + 1, line⟩ : Row)) =
      ((lines text.toList).mapIdx fun i line => (i + 1, line)).map fun x => ⟨x.1, x.2⟩ := by
    simp [List.mapIdx_eq_zipIdx_map]
  rw [rows, Growth.foldlM_filter, hlines, List.foldlM_map]
  rfl

theorem not_isBlank_of_mem_rows {text : String} {r : Row} (h : r ∈ rows text) : ¬ r.IsBlank := by
  simpa using (List.mem_filter.1 h).2

/-! ## The tree of rows -/

/-- The tree has a node for each row, `i + 1` for row `i`, which is the order of a pre-order
traversal. A node is below that of the last row before it that is less deep, and siblings are in the
order of the rows. -/
structure IsLayout (rows : List Row) (tree : Arena Entry) : Prop where
  size : tree.size = rows.length + 1
  node : ∀ (i : Nat) (r : Row), rows[i]? = some r →
    ∃ e, entry? r.content = some e ∧ tree.kind (i + 1) = e.kind ∧
      tree.position (i + 1) = r.position ∧ tree.payload? (i + 1) = some e
  parent : ∀ (i : Nat) (r : Row), rows[i]? = some r →
    ∀ node, i + 1 ∈ tree.children node ↔ LastShallower (rows.take i) r.depth node
  siblings : ∀ node, (tree.children node).Pairwise (· < ·)
  preorder : ∃ h : tree.IsTree, h.nodesFrom 0 = List.range tree.size

/-- The level of a node: the root is above all rows. -/
def level (rows : List Row) : Nat → Nat
  | 0 => 0
  | i + 1 => (rows[i]?.map Row.depth).getD 0 + 1

theorem level_of_getElem? {rows : List Row} {i : Nat} {r : Row} (h : rows[i]? = some r) :
    level rows (i + 1) = r.depth + 1 := by
  rw [level, h]
  rfl

theorem lt_level_of_drop {rows : List Row} {depth start k node : Nat} (hk : k ≤ rows.length)
    (hdeep : ∀ q ∈ (rows.take k).drop start, depth ≤ q.depth) (hstart : start < node)
    (hnode : node ≤ k) : depth < level rows node := by
  obtain ⟨i, rfl⟩ := Nat.exists_eq_add_one_of_ne_zero (Nat.ne_of_gt (Nat.zero_lt_of_lt hstart))
  have hi := List.getElem?_eq_getElem (show i < rows.length by omega)
  have hmem : rows[i] ∈ (rows.take k).drop start := by
    refine List.mem_iff_getElem?.2 ⟨i - start, ?_⟩
    rw [List.getElem?_drop, Nat.add_sub_cancel' (Nat.le_of_lt_succ hstart), List.getElem?_take,
      if_pos (Nat.lt_of_succ_le hnode), hi]
  rw [level_of_getElem? hi]
  exact Nat.lt_succ_of_le (hdeep _ hmem)

namespace Makes

variable {rows : List Row} {xs : List (Addition Entry)}

theorem exists_row (h : Makes rows xs) {i : Nat} {x : Addition Entry}
    (hx : xs[i]? = some x) : ∃ r, rows[i]? = some r ∧ r.Makes (rows.take i) x := by
  obtain ⟨hi, -⟩ := List.getElem?_eq_some_iff.1 hx
  obtain ⟨r, hr⟩ : ∃ r, rows[i]? = some r :=
    ⟨_, List.getElem?_eq_getElem (by rwa [h.length_eq] at hi)⟩
  obtain ⟨y, hy, hmade⟩ := h.exists_addition hr
  obtain rfl := Option.some.inj (hx.symm.trans hy)
  exact ⟨r, hr, hmade⟩

theorem isTree (h : Makes rows xs) : ((Arena.new Entry.root).addAll xs).IsTree := by
  refine Arena.isTree_addAll _ fun k x hx => ?_
  obtain ⟨r, -, hmade⟩ := h.exists_row hx
  have hle := hmade.parent.le_length
  rw [List.length_take] at hle
  omega

theorem followsLevels (h : Makes rows xs) :
    ((Arena.new Entry.root).addAll xs).FollowsLevels (level rows) := by
  intro i c hc
  obtain ⟨k, x, hx, rfl, rfl, -⟩ := (Arena.mem_children_addAll _).1 hc
  obtain ⟨r, hr, hmade⟩ := h.exists_row hx
  obtain ⟨hk, -⟩ := List.getElem?_eq_some_iff.1 hr
  rw [level_of_getElem? hr]
  have hparent := hmade.parent
  generalize x.parent = node at hparent
  -- The rows between a node and its parent are not less deep than the node.
  cases hparent with
  | root hall =>
    have hdeep : ∀ q ∈ (rows.take k).drop 0, r.depth ≤ q.depth := hall
    refine ⟨Nat.succ_pos _, fun j hj hjk => ?_⟩
    exact lt_level_of_drop (Nat.le_of_lt hk) hdeep hj (Nat.le_of_lt_succ hjk)
  | @row m q hq hlt hafter =>
    rw [List.getElem?_take] at hq
    split at hq
    · refine ⟨?_, fun j hj hjk => ?_⟩
      · rw [level_of_getElem? hq]
        omega
      · exact lt_level_of_drop (Nat.le_of_lt hk) hafter hj (Nat.le_of_lt_succ hjk)
    · cases hq

theorem isLayout (h : Makes rows xs) : IsLayout rows ((Arena.new Entry.root).addAll xs) where
  size := by rw [Arena.size_addAll, h.length_eq]
  node i r hr := by
    obtain ⟨x, hx, hmade⟩ := h.exists_addition hr
    obtain ⟨hkind, hposition, hpayload⟩ := Arena.node_addAll .root hx
    exact ⟨x.payload, hmade.entry, hkind.trans hmade.kind, hposition.trans hmade.position, hpayload⟩
  parent i r hr node := by
    obtain ⟨x, hx, hmade⟩ := h.exists_addition hr
    rw [Arena.mem_children_addAll]
    constructor
    · rintro ⟨k, y, hy, hk, rfl, -⟩
      obtain rfl : i = k := Nat.succ_inj.1 hk
      rw [← Option.some.inj (hx.symm.trans hy)]
      exact hmade.parent
    · intro hnode
      have hle := hnode.le_length
      rw [List.length_take] at hle
      exact ⟨i, x, hx, rfl, hmade.parent.unique hnode, by omega⟩
  siblings := Arena.pairwise_children_addAll _ xs
  preorder := ⟨h.isTree, h.isTree.nodesFrom_root_eq_range h.followsLevels
    (Arena.pairwise_children_addAll _ xs)⟩

end Makes

/-! ## Reading a text -/

theorem parse_eq_error {text : String} {before after : List Row} {bad : Row}
    (hrows : rows text = before ++ bad :: after) (hbefore : ∀ r ∈ before, r.Opens)
    (hbad : ¬ bad.Opens) : parse text = .error bad.fault := by
  have hblank : ¬ bad.IsBlank := not_isBlank_of_mem_rows (by rw [hrows]; simp)
  rw [parse_eq, hrows, Growth.foldlM_of_not_opens hbefore hblank hbad]
  rfl

theorem opens_of_parse_eq_ok {text : String} {tree : Arena Entry} (h : parse text = .ok tree) :
    ∀ r ∈ rows text, r.Opens := by
  intro r hr
  by_contra hnot
  have hsome : ((rows text).find? fun r => ¬ r.Opens).isSome :=
    List.find?_isSome.2 ⟨r, hr, by simpa using hnot⟩
  obtain ⟨bad, hfirst⟩ := Option.isSome_iff_exists.1 hsome
  obtain ⟨hbad, before, after, hrows, hbefore⟩ := List.find?_eq_some_iff_append.1 hfirst
  have herror := parse_eq_error hrows (by simpa using hbefore) (by simpa using hbad)
  rw [h] at herror
  cases herror

theorem exists_isLayout {text : String} (h : ∀ r ∈ rows text, r.Opens) :
    ∃ tree, parse text = .ok tree ∧ IsLayout (rows text) tree := by
  obtain ⟨g, hrun, hg⟩ := Growth.holds_nil.foldlM h
  obtain ⟨xs, hxs, harena⟩ := hg.arena
  refine ⟨g.arena, by rw [parse_eq, hrun]; rfl, ?_⟩
  rw [harena]
  exact hxs.isLayout

/-- **An outline is read by its indents.** There is a tree if each row opens with a word. Then the
rows are its nodes in pre-order, each below the last row before it that is less deep, however uneven
the indents are. Otherwise the first row that does not open with a word is at fault. -/
theorem parse_layout (text : String) :
    ((∃ tree, parse text = .ok tree) ↔ ∀ r ∈ rows text, r.Opens) ∧
    (∀ before bad after, rows text = before ++ bad :: after → (∀ r ∈ before, r.Opens) →
      ¬ bad.Opens → parse text = .error bad.fault) ∧
    ∀ tree, parse text = .ok tree → IsLayout (rows text) tree := by
  refine ⟨⟨fun ⟨tree, htree⟩ => opens_of_parse_eq_ok htree, fun hopens => ?_⟩,
    fun before bad after => parse_eq_error, fun tree htree => ?_⟩
  · obtain ⟨tree, htree, -⟩ := exists_isLayout hopens
    exact ⟨tree, htree⟩
  · obtain ⟨other, hother, hlayout⟩ := exists_isLayout (opens_of_parse_eq_ok htree)
    obtain rfl : tree = other := Except.ok.inj (htree.symm.trans hother)
    exact hlayout

/-- A row that is less deep than the one before it, but not as shallow as any row before that. -/
theorem parse_layout_uneven :
    let text := "mod m\n      decl A()\n   call B()\n\n     call ?\n decl C()"
    (∀ r ∈ rows text, r.Opens) ∧ ∃ tree, parse text = .ok tree ∧ tree.size = 6 ∧
      tree.position 4 = ⟨5, 5⟩ ∧ 3 ∈ tree.children 1 ∧ 4 ∈ tree.children 3 ∧
      5 ∈ tree.children 0 := by
  intro text
  have hrows : rows text = [⟨1, "mod m".toList⟩, ⟨2, "      decl A()".toList⟩,
      ⟨3, "   call B()".toList⟩, ⟨5, "     call ?".toList⟩, ⟨6, " decl C()".toList⟩] := by decide
  have hopens : ∀ r ∈ rows text, r.Opens := by
    rw [hrows]
    decide
  obtain ⟨tree, htree⟩ := (parse_layout text).1.2 hopens
  have hlayout := (parse_layout text).2.2 tree htree
  rw [hrows] at hlayout
  obtain ⟨-, -, -, hposition, -⟩ := hlayout.node 3 _ rfl
  refine ⟨hopens, tree, htree, hlayout.size, hposition,
    (hlayout.parent 2 _ rfl 1).2 (.row rfl (by decide) (by decide)),
    (hlayout.parent 3 _ rfl 3).2 (.row rfl (by decide) (by decide)),
    (hlayout.parent 4 _ rfl 0).2 (.root (by decide))⟩

end Calligraph.Outline
