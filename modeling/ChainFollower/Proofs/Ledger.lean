import ChainFollower.Block.Document

namespace ChainFollower

/-- A block with its payload for one game. -/
structure Block where
  header : Header
  payload : Json

def Block.tip (b : Block) : Tip := b.header.tip

/-- Blocks under their hashes, among them the one at `root`, where the game starts. -/
structure Ledger (root : Tip) where
  block : Hash → Option Block
  first : Block
  hash_eq {hash : Hash} {b : Block} : block hash = some b → b.header.hash = hash
  decodes {hash : Hash} {b : Block} : block hash = some b → payloadHeader b.payload = .ok b.header
  height_succ {hash : Hash} {b p : Block} : block hash = some b → block b.header.parent = some p →
    b.header.height.toNat = p.header.height.toNat + 1
  block_root : block root.hash = some first
  first_tip : first.tip = root

namespace Ledger

variable {root : Tip} {L : Ledger root}

def Holds (L : Ledger root) (b : Block) : Prop := L.block b.header.hash = some b

/-- A payload with a header is that of the block which the header names. -/
def Admits (L : Ledger root) (payload : Json) : Prop :=
  ∀ header, payloadHeader payload = .ok header → L.Holds ⟨header, payload⟩

theorem holds_of_block {hash : Hash} {b : Block} (h : L.block hash = some b) : L.Holds b := by
  unfold Holds
  rw [L.hash_eq h]
  exact h

theorem first_hash (L : Ledger root) : L.first.header.hash = root.hash :=
  L.hash_eq L.block_root

theorem first_height (L : Ledger root) : L.first.header.height = root.height :=
  congrArg Tip.height L.first_tip

theorem first_holds (L : Ledger root) : L.Holds L.first := holds_of_block L.block_root

theorem Holds.admits {b : Block} (h : L.Holds b) : L.Admits b.payload := by
  intro header hp
  have heq : b.header = header := Except.ok.inj ((L.decodes h).symm.trans hp)
  subst heq
  exact h

theorem Holds.eq_of_hash {b c : Block} (hb : L.Holds b) (hc : L.Holds c)
    (h : b.header.hash = c.header.hash) : b = c := by
  unfold Holds at hb hc
  rw [h, hc] at hb
  exact (Option.some.inj hb).symm

theorem Holds.eq_of_tip {b c : Block} (hb : L.Holds b) (hc : L.Holds c) (h : b.tip = c.tip) : b = c :=
  hb.eq_of_hash hc (congrArg Tip.hash h)

theorem Holds.height {b p : Block} (hb : L.Holds b) (hp : L.Holds p)
    (h : b.header.parent = p.header.hash) :
    b.header.height.toNat = p.header.height.toNat + 1 := by
  refine L.height_succ hb ?_
  rw [h]
  exact hp

theorem toNat_eq_lower_succ {height : UInt64} (h : 0 < height.toNat) :
    height.toNat = (lower height).toNat + 1 := by
  have hne : height ≠ 0 := by
    intro h0
    simp [h0] at h
  have hle : (1 : UInt64) ≤ height := by
    rw [UInt64.le_iff_toNat_le]
    simp
    omega
  unfold lower
  rw [if_neg hne, UInt64.toNat_sub_of_le _ _ hle]
  simp
  omega

theorem lower_eq_of_succ {height below : UInt64} (h : height.toNat = below.toNat + 1) :
    lower height = below := by
  have hlower : height.toNat = (lower height).toNat + 1 := toNat_eq_lower_succ (by omega)
  apply UInt64.toNat_inj.mp
  omega

theorem toNat_succ_of_lt {height target : UInt64} (h : height < target) :
    (height + 1).toNat = height.toNat + 1 := by
  have hsize := target.toNat_lt
  rw [UInt64.lt_iff_toNat_lt] at h
  rw [UInt64.toNat_add]
  simp
  omega

theorem Holds.parentTip {b p : Block} (hb : L.Holds b) (hp : L.Holds p)
    (h : b.header.parent = p.header.hash) : b.header.parentTip = p.tip := by
  unfold Header.parentTip Block.tip Header.tip
  rw [lower_eq_of_succ (hb.height hp h), h]

/-- The block at the end of a branch, which has its newest block in front. -/
def top (L : Ledger root) (bs : List Block) : Block := bs.headD L.first

/-- Each block lies on the one after it, and the oldest one on the first block of the game. -/
def Branch (L : Ledger root) : List Block → Prop
  | [] => True
  | b :: below => L.Holds b ∧ b.header.parent = (L.top below).header.hash ∧ L.Branch below

@[simp] theorem top_nil : L.top [] = L.first := rfl

@[simp] theorem top_cons {b : Block} {below : List Block} : L.top (b :: below) = b := rfl

theorem Branch.of_append {upper lower : List Block} (h : L.Branch (upper ++ lower)) :
    L.Branch lower := by
  induction upper with
  | nil => exact h
  | cons b below ih => exact ih h.2.2

theorem Branch.holds_top {bs : List Block} (h : L.Branch bs) : L.Holds (L.top bs) := by
  cases bs with
  | nil => exact L.first_holds
  | cons b below => exact h.1

theorem Branch.height_top {bs : List Block} (h : L.Branch bs) :
    (L.top bs).header.height.toNat = root.height.toNat + bs.length := by
  induction bs with
  | nil => simp [first_height]
  | cons b below ih =>
    have hb := h.1.height h.2.2.holds_top h.2.1
    have hbelow := ih h.2.2
    simp only [top_cons, List.length_cons]
    omega

theorem Branch.height_lt {upper lower : List Block} (h : L.Branch (upper ++ lower)) {b : Block}
    (hb : b ∈ upper) : (L.top lower).header.height.toNat < b.header.height.toNat := by
  induction upper with
  | nil => cases hb
  | cons c below ih =>
    rcases List.mem_cons.mp hb with rfl | hb
    · have htop := h.height_top
      have hlower := h.of_append.height_top
      simp only [List.cons_append, top_cons, List.length_cons, List.length_append] at htop
      omega
    · exact ih h.2.2 hb

/-- A block has one branch below it. -/
theorem Branch.unique {bs cs : List Block} (hb : L.Branch bs) (hc : L.Branch cs)
    (h : L.top bs = L.top cs) : bs = cs := by
  induction bs generalizing cs with
  | nil =>
    have hlen := hc.height_top
    rw [← h, top_nil, first_height] at hlen
    exact (List.length_eq_zero_iff.mp (by omega)).symm
  | cons b below ih =>
    cases cs with
    | nil =>
      have hlen := hb.height_top
      rw [h, top_nil, first_height] at hlen
      simp at hlen
    | cons c rest =>
      have heq : b = c := h
      subst heq
      have htop : L.top below = L.top rest :=
        hb.2.2.holds_top.eq_of_hash hc.2.2.holds_top (hb.2.1.symm.trans hc.2.1)
      rw [ih hb.2.2 hc.2.2 htop]

theorem Branch.eq_nil_iff {bs : List Block} (h : L.Branch bs) : bs = [] ↔ (L.top bs).tip = root := by
  constructor
  · rintro rfl
    exact L.first_tip
  · intro ht
    have hlen := h.height_top
    have hh : (L.top bs).header.height = root.height := congrArg Tip.height ht
    rw [hh] at hlen
    exact List.length_eq_zero_iff.mp (by omega)

/-- Blocks with the newest in front, each on the one after it. -/
def Linked (L : Ledger root) : List Block → Prop
  | [] => True
  | b :: below =>
    L.Holds b ∧ (∀ p ∈ below.head?, b.header.parent = p.header.hash) ∧ L.Linked below

theorem Linked.holds {bs : List Block} (h : L.Linked bs) {b : Block} (hb : b ∈ bs) : L.Holds b := by
  induction bs with
  | nil => simp at hb
  | cons c below ih =>
    rcases List.mem_cons.mp hb with rfl | hb
    · exact h.1
    · exact ih h.2.2 hb

theorem Linked.height_lt {t : Block} {below : List Block} (h : L.Linked (t :: below)) {b : Block}
    (hb : b ∈ below) : b.header.height.toNat < t.header.height.toNat := by
  induction below generalizing t with
  | nil => simp at hb
  | cons c rest ih =>
    have hc := h.1.height h.2.2.1 (h.2.1 c rfl)
    rcases List.mem_cons.mp hb with rfl | hb
    · omega
    · have := ih h.2.2 hb
      omega

theorem Linked.eq_of_height {bs : List Block} (h : L.Linked bs) {b c : Block} (hb : b ∈ bs)
    (hc : c ∈ bs) (heq : b.header.height = c.header.height) : b = c := by
  induction bs with
  | nil => simp at hb
  | cons t below ih =>
    rcases List.mem_cons.mp hb with rfl | hbm
    · rcases List.mem_cons.mp hc with rfl | hcm
      · rfl
      · have hlt := h.height_lt hcm
        rw [heq] at hlt
        omega
    · rcases List.mem_cons.mp hc with rfl | hcm
      · have hlt := h.height_lt hbm
        rw [heq] at hlt
        omega
      · exact ih h.2.2 hbm hcm

/-- Only the lowest block of a chain has its parent outside. -/
theorem Linked.parent_mem {bs : List Block} (h : L.Linked bs) {b r : Block} (hb : b ∈ bs)
    (hr : r ∈ bs) (hlt : r.header.height.toNat < b.header.height.toNat) :
    ∃ p ∈ bs, b.header.parent = p.header.hash := by
  induction bs with
  | nil => simp at hb
  | cons t below ih =>
    rcases List.mem_cons.mp hb with rfl | hbm
    · rcases List.mem_cons.mp hr with rfl | hrm
      · omega
      · cases below with
        | nil => simp at hrm
        | cons p rest => exact ⟨p, by simp, h.2.1 p rfl⟩
    · rcases List.mem_cons.mp hr with rfl | hrm
      · have := h.height_lt hbm
        omega
      · obtain ⟨p, hp, heq⟩ := ih h.2.2 hbm hrm
        exact ⟨p, List.mem_cons_of_mem _ hp, heq⟩

theorem Linked.child_mem {t : Block} {below : List Block} (h : L.Linked (t :: below)) {b : Block}
    (hb : b ∈ below) : ∃ c ∈ t :: below, c.header.parent = b.header.hash := by
  induction below generalizing t with
  | nil => simp at hb
  | cons p rest ih =>
    rcases List.mem_cons.mp hb with rfl | hb
    · exact ⟨t, by simp, h.2.1 b rfl⟩
    · obtain ⟨c, hc, heq⟩ := ih h.2.2 hb
      exact ⟨c, List.mem_cons_of_mem _ hc, heq⟩

/-- A canonical chain down to its oldest block. -/
structure Chain (L : Ledger root) where
  tip : Block
  below : List Block
  linked : L.Linked (tip :: below)

namespace Chain

variable {c d : L.Chain}

def blocks (c : L.Chain) : List Block := c.tip :: c.below

/-- The canonical block at a height; none above the tip. -/
def hashAt (c : L.Chain) (height : UInt64) : Option Hash :=
  (c.blocks.find? fun b => b.header.height = height).map fun b => b.header.hash

/-- The chain that is only this block. -/
def single (b : Block) (hb : L.Holds b) : L.Chain := ⟨b, [], hb, by simp, trivial⟩

def attach (c : L.Chain) (b : Block) (hb : L.Holds b) (h : b.header.parent = c.tip.header.hash) :
    L.Chain :=
  ⟨b, c.blocks, hb, by simpa [blocks] using h, c.linked⟩

/-- One more block lies on the tip of `c`. -/
def Attaches (c d : L.Chain) : Prop := d.below = c.blocks

theorem hashAt_eq_some_iff {height : UInt64} {hash : Hash} :
    c.hashAt height = some hash ↔
      ∃ b ∈ c.blocks, b.header.height = height ∧ b.header.hash = hash := by
  constructor
  · intro h
    obtain ⟨b, hb, rfl⟩ := Option.map_eq_some_iff.mp h
    exact ⟨b, List.mem_of_find?_eq_some hb, by simpa using List.find?_some hb, rfl⟩
  · rintro ⟨b, hb, rfl, rfl⟩
    unfold hashAt
    cases hf : c.blocks.find? fun x => x.header.height = b.header.height with
    | none =>
      have hne := List.find?_eq_none.mp hf b hb
      simp at hne
    | some x =>
      have hx : x = b := c.linked.eq_of_height (List.mem_of_find?_eq_some hf) hb
        (by simpa using List.find?_some hf)
      simp [hx]

theorem height_le_tip {b : Block} (hb : b ∈ c.blocks) :
    b.header.height.toNat ≤ c.tip.header.height.toNat := by
  rcases List.mem_cons.mp hb with rfl | hb
  · exact Nat.le_refl _
  · exact Nat.le_of_lt (c.linked.height_lt hb)

/-- A canonical block below the tip has a canonical block on it. -/
theorem exists_child {b : Block} (hb : b ∈ c.blocks) (h : b.header.height < c.tip.header.height) :
    ∃ x ∈ c.blocks, x.header.parent = b.header.hash ∧
      x.header.height.toNat = b.header.height.toNat + 1 := by
  rcases List.mem_cons.mp hb with rfl | hm
  · simp at h
  · obtain ⟨x, hx, heq⟩ := c.linked.child_mem hm
    exact ⟨x, hx, heq, (c.linked.holds hx).height (c.linked.holds hb) heq⟩

/-- With the end of a branch, the chain has come at least as far as where the game starts. -/
theorem root_le_tip {bs : List Block} (h : L.Branch bs) (htop : L.top bs ∈ c.blocks) :
    root.height ≤ c.tip.header.height := by
  have hle := height_le_tip htop
  rw [h.height_top] at hle
  rw [UInt64.le_iff_toNat_le]
  omega

/-- A branch on a canonical block leaves the chain at one place. -/
theorem exists_fork (hroot : L.first ∈ c.blocks) (bs : List Block) :
    ∃ upper lower, bs = upper ++ lower ∧ (∀ b ∈ upper, b ∉ c.blocks) ∧ L.top lower ∈ c.blocks := by
  induction bs with
  | nil => exact ⟨[], [], rfl, by simp, hroot⟩
  | cons b below ih =>
    by_cases hb : b ∈ c.blocks
    · exact ⟨[], b :: below, rfl, by simp, hb⟩
    · obtain ⟨upper, lower, rfl, hout, htop⟩ := ih
      refine ⟨b :: upper, lower, rfl, ?_, htop⟩
      intro x hx
      rcases List.mem_cons.mp hx with rfl | hx
      · exact hb
      · exact hout x hx

/-- With its end, and with the first block of the game, a branch is canonical as a whole. -/
theorem branch_mem {bs : List Block} (hroot : L.first ∈ c.blocks) (h : L.Branch bs)
    (htop : L.top bs ∈ c.blocks) : ∀ b ∈ bs, b ∈ c.blocks := by
  induction bs with
  | nil => simp
  | cons b below ih =>
    have hlen := h.height_top
    rw [← first_height L, top_cons, List.length_cons] at hlen
    obtain ⟨p, hp, heq⟩ := c.linked.parent_mem htop hroot (by rw [top_cons]; omega)
    have hpe : L.top below = p :=
      h.2.2.holds_top.eq_of_hash (c.linked.holds hp) (h.2.1.symm.trans heq)
    intro x hx
    rcases List.mem_cons.mp hx with rfl | hx
    · exact htop
    · exact ih h.2.2 (hpe ▸ hp) x hx

end Chain

/-- The ledger of these blocks. -/
def ofList (root : Tip) (first : Block) (blocks : List Block)
    (decodes : ∀ b ∈ blocks, payloadHeader b.payload = .ok b.header)
    (height_succ : ∀ b ∈ blocks, ∀ p ∈ blocks, b.header.parent = p.header.hash →
      b.header.height.toNat = p.header.height.toNat + 1)
    (block_root : (blocks.find? fun b => b.header.hash = root.hash) = some first)
    (first_tip : first.tip = root) : Ledger root where
  block hash := blocks.find? fun b => b.header.hash = hash
  first := first
  hash_eq h := by simpa using List.find?_some h
  decodes h := decodes _ (List.mem_of_find?_eq_some h)
  height_succ h hp := by
    refine height_succ _ (List.mem_of_find?_eq_some h) _ (List.mem_of_find?_eq_some hp) ?_
    have hhash := List.find?_some hp
    simp only [decide_eq_true_eq] at hhash
    exact hhash.symm
  block_root := block_root
  first_tip := first_tip

end Ledger

namespace Fork

def hash (n : UInt8) : Hash := ⟨List.replicate 31 0 ++ [n], by simp⟩

def block (n parent : UInt8) (height : UInt64) : Block :=
  let header : Header := ⟨hash n, hash parent, height⟩
  ⟨header, .obj [("block", header.toJson)]⟩

def genesis : Block := block 1 0 0
def start : Block := block 2 1 1
def left : Block := block 3 2 2
def leftEnd : Block := block 4 3 3
def right : Block := block 5 2 2
def rightEnd : Block := block 6 5 3

/-- The smallest fork: the game starts on the block `2` at height one, on which the branches `3`, `4` and
`5`, `6` lie. -/
def blocks : List Block := [genesis, start, left, leftEnd, right, rightEnd]

theorem payloadHeader_of_mem : ∀ b ∈ blocks, payloadHeader b.payload = .ok b.header := by
  intro b hb
  simp only [blocks, List.mem_cons, List.not_mem_nil, or_false] at hb
  rcases hb with rfl | rfl | rfl | rfl | rfl | rfl <;> rfl

def ledger : Ledger start.tip :=
  .ofList start.tip start blocks payloadHeader_of_mem (by decide) rfl rfl

def toGenesis : ledger.Chain := .single genesis rfl
def toStart : ledger.Chain := toGenesis.attach start rfl rfl
def toLeft : ledger.Chain := toStart.attach left rfl rfl
def toLeftEnd : ledger.Chain := toLeft.attach leftEnd rfl rfl
def toRight : ledger.Chain := toStart.attach right rfl rfl
def toRightEnd : ledger.Chain := toRight.attach rightEnd rfl rfl

end Fork

end ChainFollower
