import Mathlib.Data.List.Chain
import Mathlib.Order.Bounds.Basic
import CanTsnGateway.Lib.Packer

/-!
# Packing in order is optimal without flushes

A split of a list is a way to write it as consecutive blocks within the capacity.  A list
of blocks is greedy when the first item of each block did not fit into the one before it
(`Blocked`).  Greedy blocks reach at least as far as the blocks of any other split, so
there are no fewer of them in any split:

    gs greedy → gs.flatten a suffix of bs.flatten → gs.length ≤ bs.length   (length_le_of_suffix)

A packer that is never asked to flush keeps its blocks greedy (`greedy_step`).
-/

namespace Packer

variable {α : Type} (size : α → Nat) (hdr cap : Nat)

/-- The blocks `bs` are `as`, in order, and each is within the capacity. -/
structure IsSplit (as : List α) (bs : List (List α)) : Prop where
  flatten : bs.flatten = as
  fits : ∀ b ∈ bs, hdr + load size b ≤ cap

/-- The first item of `g'` has no room behind `g`. -/
def Blocked (g g' : List α) : Prop := ∃ a, g'.head? = some a ∧ cap < hdr + load size g + size a

/-! ## Greedy blocks reach furthest -/

theorem flatten_eq_nil_of_ne {gs : List (List α)} (hne : ∀ g ∈ gs, g ≠ []) (h : gs.flatten = []) :
    gs = [] := by
  cases gs with
  | nil => rfl
  | cons g gs =>
    rw [List.flatten_cons] at h
    exact absurd (List.append_eq_nil_iff.1 h).1 (hne g List.mem_cons_self)

/-- The other split's first block does not reach past the greedy one. -/
theorem tail_suffix {g b a : List α} {x : α} {rest : List α} (hb : hdr + load size b ≤ cap)
    (hblocked : cap < hdr + load size g + size x) (h : g ++ x :: rest <:+ b ++ a) :
    x :: rest <:+ a := by
  have hrest : x :: rest <:+ b ++ a := (List.suffix_append g _).trans h
  rcases List.suffix_or_suffix_of_suffix hrest (List.suffix_append b a) with hsuf | ⟨r, hr⟩
  · exact hsuf
  · cases r with
    | nil => exact ⟨[], hr.symm⟩
    | cons y r =>
      rw [List.cons_append] at hr
      obtain ⟨rfl, hr'⟩ := List.cons.inj hr
      obtain ⟨pre, hpre⟩ := h
      have heq : pre ++ (g ++ y :: r) = b := by
        rw [← hr', show pre ++ (g ++ y :: (r ++ a)) = pre ++ (g ++ y :: r) ++ a by simp] at hpre
        exact List.append_cancel_right hpre
      -- the block `b` would hold `g` and the item that does not fit behind it
      have hload : load size b = load size pre + (load size g + (size y + load size r)) := by
        rw [← heq, load_append, load_append]
        rfl
      omega

/-- **Greedy stays ahead.** -/
theorem length_le_of_suffix {gs bs : List (List α)} (hne : ∀ g ∈ gs, g ≠ [])
    (hchain : gs.IsChain (Blocked size hdr cap)) (hfits : ∀ b ∈ bs, hdr + load size b ≤ cap)
    (h : gs.flatten <:+ bs.flatten) : gs.length ≤ bs.length := by
  induction bs generalizing gs with
  | nil =>
    rw [flatten_eq_nil_of_ne hne (List.suffix_nil.1 h)]
  | cons b bs ih =>
    cases gs with
    | nil => exact Nat.zero_le _
    | cons g gs =>
      have hne' : ∀ g' ∈ gs, g' ≠ [] := fun g' hg' => hne g' (List.mem_cons_of_mem g hg')
      have hfits' : ∀ b' ∈ bs, hdr + load size b' ≤ cap := fun b' hb' =>
        hfits b' (List.mem_cons_of_mem b hb')
      refine Nat.succ_le_succ (ih hne' hchain.tail hfits' ?_)
      cases gs with
      | nil => exact List.nil_suffix
      | cons g' gs =>
        obtain ⟨⟨x, hx, hblocked⟩, -⟩ := List.isChain_cons_cons.1 hchain
        obtain ⟨t, rfl⟩ : ∃ t, g' = x :: t := List.head?_eq_some_iff.1 hx
        rw [List.flatten_cons, List.flatten_cons, List.flatten_cons, List.cons_append] at h
        rw [List.flatten_cons, List.cons_append]
        exact tail_suffix size hdr cap (hfits b List.mem_cons_self) hblocked h

/-- **Greedy splits are shortest.** -/
theorem isLeast_length_of_greedy {as : List α} {gs : List (List α)} (hsplit : IsSplit size hdr cap as gs)
    (hne : ∀ g ∈ gs, g ≠ []) (hchain : gs.IsChain (Blocked size hdr cap)) :
    IsLeast {n | ∃ bs, IsSplit size hdr cap as bs ∧ bs.length = n} gs.length := by
  refine ⟨⟨gs, hsplit, rfl⟩, ?_⟩
  rintro n ⟨bs, hbs, rfl⟩
  have heq : gs.flatten = bs.flatten := hsplit.flatten.trans hbs.flatten.symm
  exact length_le_of_suffix size hdr cap hne hchain hbs.fits (heq ▸ List.suffix_refl _)

/-! ## The packer -/

/-- The closed containers, the open one and the carried item, which will start the next. -/
def blocks (p : Packer α) : List (List α) :=
  p.closed ++ (if p.pending = [] then [] else [p.pending]) ++ p.carry.toList.map fun a => [a]

/-- The blocks are greedy, and when nothing is held the last container was full. -/
structure Greedy (p : Packer α) : Prop where
  ne_nil : ∀ g ∈ blocks p, g ≠ []
  chain : (blocks p).IsChain (Blocked size hdr cap)
  full : p.pending = [] → p.carry = none → ∀ c, p.closed.getLast? = some c → cap ≤ hdr + load size c

theorem greedy_empty : Greedy size hdr cap (empty : Packer α) :=
  ⟨nofun, .nil, fun _ _ => nofun⟩

theorem flatten_blocks (p : Packer α) : (blocks p).flatten = contents p := by
  unfold blocks contents
  rw [List.flatten_append, List.flatten_append]
  congr 1
  · split
    · next hnil => rw [hnil]; rfl
    · simp
  · cases p.carry <;> rfl

theorem isSplit_blocks (h1 : ∀ a, hdr + size a ≤ cap) {p : Packer α} (hp : Wf size hdr cap p) :
    IsSplit size hdr cap (contents p) (blocks p) := by
  refine ⟨flatten_blocks p, fun b hb => ?_⟩
  unfold blocks at hb
  rcases List.mem_append.1 hb with hb | hb
  · rcases List.mem_append.1 hb with hb | hb
    · exact hp.closed_le b hb
    · split at hb
      · cases hb
      · rw [List.mem_singleton.1 hb]
        exact Nat.le_of_lt hp.room
  · obtain ⟨a, -, rfl⟩ := List.mem_map.1 hb
    rw [load_singleton]
    exact h1 a

/-- Closing a container leaves the blocks as they are. -/
@[simp] theorem blocks_close (p : Packer α) (flush : Bool) : blocks (close size hdr cap p flush) = blocks p := by
  unfold close
  split
  · next hcl =>
    have hne : p.pending ≠ [] := by
      unfold closes at hcl
      simp only [Bool.and_eq_true, Bool.not_eq_true', List.isEmpty_eq_false_iff] at hcl
      exact hcl.1
    unfold blocks
    rw [if_pos rfl, if_neg hne, List.append_nil]
  · rfl

theorem blocks_put_fits {p : Packer α} {a : α} (hc : p.carry = none)
    (hfit : hdr + load size p.pending + size a ≤ cap) :
    blocks (put size hdr cap p a) = p.closed ++ [p.pending ++ [a]] := by
  unfold put blocks
  rw [if_pos hfit]
  simp [hc]

theorem blocks_put_over {p : Packer α} {a : α} (hc : p.carry = none)
    (hover : ¬ hdr + load size p.pending + size a ≤ cap) :
    blocks (put size hdr cap p a) = blocks p ++ [[a]] := by
  unfold put blocks
  rw [if_neg hover]
  simp [hc]

theorem chain_snoc {gs : List (List α)} {g : List α} (h : gs.IsChain (Blocked size hdr cap))
    (hlast : ∀ c, gs.getLast? = some c → Blocked size hdr cap c g) :
    (gs ++ [g]).IsChain (Blocked size hdr cap) := by
  refine List.isChain_append.2 ⟨h, .singleton g, fun c hc d hd => ?_⟩
  rw [← Option.some.inj hd]
  exact hlast c hc

theorem blocked_snoc {c rs : List α} (a : α) (hne : rs ≠ []) (h : Blocked size hdr cap c rs) :
    Blocked size hdr cap c (rs ++ [a]) := by
  obtain ⟨x, hx, hlt⟩ := h
  refine ⟨x, ?_, hlt⟩
  rw [List.head?_append_of_ne_nil _ hne]
  exact hx

/-- The blocks stay greedy when an item is put behind them. -/
theorem chain_put (hpos : ∀ a, 0 < size a) (h1 : ∀ a, hdr + size a ≤ cap) {p : Packer α}
    (hc : p.carry = none) (h : Greedy size hdr cap p) (a : α) :
    (blocks (put size hdr cap p a)).IsChain (Blocked size hdr cap) := by
  have hchain := h.chain
  by_cases hfit : hdr + load size p.pending + size a ≤ cap
  · rw [blocks_put_fits size hdr cap hc hfit]
    by_cases hnil : p.pending = []
    · -- the last container was full, so the item would not have fitted there
      have hblocks : blocks p = p.closed := by simp [blocks, hnil, hc]
      rw [hblocks] at hchain
      refine chain_snoc size hdr cap hchain fun c hlast => ⟨a, by rw [hnil]; rfl, ?_⟩
      have := h.full hnil hc c hlast
      have := hpos a
      omega
    · have hblocks : blocks p = p.closed ++ [p.pending] := by simp [blocks, hnil, hc]
      rw [hblocks] at hchain
      obtain ⟨hclosed, -, hlast⟩ := List.isChain_append.1 hchain
      exact chain_snoc size hdr cap hclosed fun c hc' =>
        blocked_snoc size hdr cap a hnil (hlast c hc' p.pending rfl)
  · have hnil : p.pending ≠ [] := by
      intro hnil
      have := h1 a
      rw [hnil, load_nil] at hfit
      omega
    have hblocks : blocks p = p.closed ++ [p.pending] := by simp [blocks, hnil, hc]
    rw [blocks_put_over size hdr cap hc hfit]
    refine chain_snoc size hdr cap hchain fun c hlast => ⟨a, rfl, ?_⟩
    rw [hblocks, List.getLast?_concat] at hlast
    rw [← Option.some.inj hlast]
    omega

theorem ne_nil_put {p : Packer α} (hc : p.carry = none) (h : Greedy size hdr cap p) (a : α) :
    ∀ g ∈ blocks (put size hdr cap p a), g ≠ [] := by
  intro g hg
  by_cases hfit : hdr + load size p.pending + size a ≤ cap
  · rw [blocks_put_fits size hdr cap hc hfit] at hg
    rcases List.mem_append.1 hg with hg | hg
    · exact h.ne_nil g (List.mem_append_left _ (List.mem_append_left _ hg))
    · rw [List.mem_singleton.1 hg]
      exact List.append_ne_nil_of_right_ne_nil _ (List.cons_ne_nil a [])
  · rw [blocks_put_over size hdr cap hc hfit] at hg
    rcases List.mem_append.1 hg with hg | hg
    · exact h.ne_nil g hg
    · rw [List.mem_singleton.1 hg]
      exact List.cons_ne_nil a []

/-- The carried item has its block already. -/
theorem blocks_put_carried (h1 : ∀ a, hdr + size a ≤ cap) {p : Packer α} {a : α} (hc : p.carry = some a)
    (hnil : p.pending = []) : blocks (put size hdr cap { p with carry := none } a) = blocks p := by
  have hfit : hdr + load size p.pending + size a ≤ cap := by
    rw [hnil, load_nil]
    exact h1 a
  rw [blocks_put_fits size hdr cap (p := { p with carry := none }) rfl hfit]
  simp [blocks, hc, hnil]

/-- A packer that has just taken an item holds something. -/
theorem put_holds (p : Packer α) (a : α) :
    (put size hdr cap p a).pending = [] → (put size hdr cap p a).carry ≠ none := by
  unfold put
  split
  · intro hnil
    exact absurd hnil (List.append_ne_nil_of_right_ne_nil _ (List.cons_ne_nil a []))
  · intro _
    exact Option.some_ne_none a

theorem full_take {p : Packer α} (h : Greedy size hdr cap p) (input : Option α)
    (hnil : (take size hdr cap p input).pending = []) (hc : (take size hdr cap p input).carry = none) :
    ∀ c, (take size hdr cap p input).closed.getLast? = some c → cap ≤ hdr + load size c := by
  unfold take at hnil hc ⊢
  cases hcarry : p.carry with
  | some a =>
    simp only [hcarry] at hnil hc
    exact absurd hc (put_holds size hdr cap _ a hnil)
  | none =>
    simp only [hcarry] at hnil hc
    cases input with
    | some a => exact absurd hc (put_holds size hdr cap p a hnil)
    | none => exact h.full hnil hcarry

/-- **Without a flush the blocks stay greedy.** -/
theorem greedy_step (hpos : ∀ a, 0 < size a) (h1 : ∀ a, hdr + size a ≤ cap) {p : Packer α}
    (hp : Wf size hdr cap p) (h : Greedy size hdr cap p) (input : Option α) :
    Greedy size hdr cap (step size hdr cap p input false) := by
  have htake : (∀ g ∈ blocks (take size hdr cap p input), g ≠ []) ∧
      (blocks (take size hdr cap p input)).IsChain (Blocked size hdr cap) := by
    unfold take
    cases hc : p.carry with
    | some a =>
      simp only
      rw [blocks_put_carried size hdr cap h1 hc (hp.carry_open (by rw [hc]; rfl))]
      exact ⟨h.ne_nil, h.chain⟩
    | none =>
      cases input with
      | some a => exact ⟨ne_nil_put size hdr cap hc h a, chain_put size hdr cap hpos h1 hc h a⟩
      | none => exact ⟨h.ne_nil, h.chain⟩
  refine ⟨?_, ?_, ?_⟩
  · rw [step, blocks_close]
    exact htake.1
  · rw [step, blocks_close]
    exact htake.2
  · intro hnil hc c hlast
    rw [step, carry_close] at hc
    unfold step close at hnil hlast
    split at hlast
    · next hcl =>
      -- the container that has just gone went because it was full
      rw [List.getLast?_concat] at hlast
      rw [← Option.some.inj hlast]
      simp only [closes, hc, Option.isSome_none, Bool.false_or, Bool.or_false, Bool.and_eq_true,
        decide_eq_true_eq] at hcl
      exact hcl.2
    · next hcl =>
      rw [if_neg hcl] at hnil
      exact full_take size hdr cap h input hnil hc c hlast

end Packer
