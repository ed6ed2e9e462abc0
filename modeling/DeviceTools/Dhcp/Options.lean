/-
The walk over the options of a DHCP packet.

The option area is a list of options -- a tag, a length and as many bytes -- and of `PAD`
bytes, up to the tag `END`.  `dhclient_parse_offer` and `dhclient_parse_ack` walk over it with
one loop that takes every byte in the place of a tag for that of an option with a length.  So a
`PAD` is read together with the byte behind it.  The main result here is that the walk meets
the options of the area, one after the other, if the `PAD` bytes come in pairs.
-/
import DeviceTools.Lib.ByteWord

namespace DeviceTools.Dhcp

open ByteWord

def DHCP_PAD : UInt8 := 0x00
def DHCP_SUBNETMASK : UInt8 := 0x01
def DHCP_ROUTER : UInt8 := 0x03
def DHCP_DNS : UInt8 := 0x06
def DHCP_LEASETIME : UInt8 := 0x33
def DHCP_SERVIDENT : UInt8 := 0x36
def DHCP_FQDN : UInt8 := 0x51
def DHCP_END : UInt8 := 0xff

section
variable {σ : Type} (body : UInt8 → ℕ → List UInt8 → σ → Option σ)

/-- The loop with a bound on the number of its rounds.  The body gets the tag, the length, and
the bytes from behind the length up to the end of the receive buffer.  There is no result if
the loop reads behind the buffer. -/
def walk : ℕ → List UInt8 → σ → Option σ
  | 0, _, _ => none
  | _ + 1, [], _ => none
  | fuel + 1, tag :: bytes, s =>
      if tag = DHCP_END then some s
      else match bytes with
        | [] => none
        | length :: data => (body tag length.toNat data s).bind (walk fuel (data.drop length.toNat))

/-- `while (*(optbufp) != DHCP_END) { ...; optbufp = optbufp + *(optbufp + 1) + 2; }` -/
def walkOptions (optbuf : List UInt8) (s : σ) : Option σ := walk body (optbuf.length + 1) optbuf s

variable {body}

/-- The bound does not matter once it exceeds the number of bytes. -/
lemma walk_eq_walk : ∀ {fuel fuel' : ℕ} {optbuf : List UInt8} {s : σ}, optbuf.length < fuel →
    optbuf.length < fuel' → walk body fuel optbuf s = walk body fuel' optbuf s := by
  intro fuel
  induction fuel with
  | zero => intro fuel' optbuf s h; omega
  | succ fuel ih =>
      intro fuel' optbuf s h h'
      obtain ⟨fuel', rfl⟩ : ∃ k, fuel' = k + 1 := ⟨fuel' - 1, by omega⟩
      rcases optbuf with _ | ⟨tag, _ | ⟨length, data⟩⟩
      · rfl
      · rfl
      · simp only [walk]
        split
        · rfl
        · simp only [List.length_cons] at h h'
          congr 1
          funext s'
          exact ih (by rw [List.length_drop]; omega) (by rw [List.length_drop]; omega)

/-- What the body keeps, the walk keeps. -/
lemma walk_invariant {I : σ → Prop} (hbody : ∀ tag n data s s', I s → body tag n data s = some s' → I s') :
    ∀ {fuel : ℕ} {optbuf : List UInt8} {s s' : σ}, I s → walk body fuel optbuf s = some s' → I s' := by
  intro fuel
  induction fuel with
  | zero => intro optbuf s s' _ h; exact absurd h (by simp [walk])
  | succ fuel ih =>
      intro optbuf s s' hI h
      rcases optbuf with _ | ⟨tag, _ | ⟨length, data⟩⟩
      · exact absurd h (by simp [walk])
      · rw [walk] at h
        split_ifs at h
        rw [← Option.some.inj h]
        exact hI
      · rw [walk] at h
        split_ifs at h
        · rw [← Option.some.inj h]
          exact hI
        · obtain ⟨s₁, hs₁, h⟩ := Option.bind_eq_some_iff.1 h
          exact ih (hbody _ _ _ _ _ hI hs₁) h

/-- Two walks whose bodies do the same, up to a function on the states. -/
lemma walk_map {τ : Type} {body' : UInt8 → ℕ → List UInt8 → τ → Option τ} (f : τ → σ)
    (hbody : ∀ tag n data t, body tag n data (f t) = (body' tag n data t).map f) :
    ∀ (fuel : ℕ) (optbuf : List UInt8) (t : τ),
      walk body fuel optbuf (f t) = (walk body' fuel optbuf t).map f := by
  intro fuel
  induction fuel with
  | zero => intro optbuf t; rfl
  | succ fuel ih =>
      intro optbuf t
      rcases optbuf with _ | ⟨tag, _ | ⟨length, data⟩⟩
      · rfl
      · rw [walk, walk]
        split_ifs <;> rfl
      · rw [walk, walk]
        split_ifs
        · rfl
        · rw [hbody, Option.bind_map, Option.map_bind]
          congr 1
          funext t'
          exact ih _ t'

lemma walkOptions_end (rest : List UInt8) (s : σ) : walkOptions body (DHCP_END :: rest) s = some s := by
  simp [walkOptions, walk]

lemma walkOptions_cons {tag length : UInt8} (htag : tag ≠ DHCP_END) (data : List UInt8) (s : σ) :
    walkOptions body (tag :: length :: data) s =
      (body tag length.toNat data s).bind (walkOptions body (data.drop length.toNat)) := by
  rw [walkOptions, walk, if_neg htag]
  congr 1
  funext s'
  exact walk_eq_walk (by rw [List.length_cons, List.length_cons, List.length_drop]; omega) (by omega)

end

/-! ### The option area -/

/-- An option with its data. -/
structure DhcpOption where
  tag : UInt8
  data : List UInt8
  tag_ne_pad : tag ≠ DHCP_PAD
  tag_ne_end : tag ≠ DHCP_END
  length_lt : data.length < 256

/-- An item of the option area. -/
inductive Item where
  | pad
  | option (o : DhcpOption)

/-- The bytes of an item. -/
def Item.bytes : Item → List UInt8
  | .pad => [DHCP_PAD]
  | .option o => o.tag :: UInt8.ofNat o.data.length :: o.data

/-- The receive buffer from the option area on: the items, `END`, and other bytes. -/
def optionArea (items : List Item) (rest : List UInt8) : List UInt8 :=
  items.flatMap Item.bytes ++ DHCP_END :: rest

/-- The options of the area, in order. -/
def options (items : List Item) : List DhcpOption :=
  items.filterMap fun item =>
    match item with
    | .pad => none
    | .option o => some o

/-- The value of an option: the data of the first option with the tag. -/
def value (items : List Item) (tag : UInt8) : Option (List UInt8) :=
  ((options items).find? fun o => o.tag = tag).map DhcpOption.data

/-- The `PAD` bytes come in pairs: every run of them has even length. -/
def PaddedInPairs : List Item → Prop
  | [] => True
  | .pad :: .pad :: items => PaddedInPairs items
  | .pad :: _ => False
  | .option _ :: items => PaddedInPairs items

/-- At every option of the area, with the bytes behind it up to the end of the receive buffer,
there holds `P`. -/
def AtOptions (P : DhcpOption → List UInt8 → Prop) (rest : List UInt8) : List Item → Prop
  | [] => True
  | .pad :: items => AtOptions P rest items
  | .option o :: items => P o (optionArea items rest) ∧ AtOptions P rest items

lemma optionArea_option (o : DhcpOption) (items : List Item) (rest : List UInt8) :
    optionArea (.option o :: items) rest =
      o.tag :: UInt8.ofNat o.data.length :: (o.data ++ optionArea items rest) := by
  simp [optionArea, Item.bytes]

lemma optionArea_pads (items : List Item) (rest : List UInt8) :
    optionArea (.pad :: .pad :: items) rest = DHCP_PAD :: DHCP_PAD :: optionArea items rest := by
  simp [optionArea, Item.bytes]

lemma atOptions_true (rest : List UInt8) : ∀ items, AtOptions (fun _ _ => True) rest items
  | [] => trivial
  | .pad :: items => atOptions_true rest items
  | .option _ :: items => ⟨trivial, atOptions_true rest items⟩

/-- What holds at every option, from what holds at every option and of the option itself. -/
lemma AtOptions.imp {P Q : DhcpOption → List UInt8 → Prop} {rest : List UInt8} :
    ∀ {items : List Item}, (∀ o ∈ options items, ∀ after, P o after → Q o after) →
      AtOptions P rest items → AtOptions Q rest items := by
  intro items
  induction items with
  | nil => intro _ _; trivial
  | cons item items ih =>
      intro hPQ hP
      cases item with
      | pad => exact ih hPQ hP
      | option o =>
          exact ⟨hPQ o (by simp [options]) _ hP.1, ih (fun o' ho' => hPQ o' (by
            simp only [options, List.filterMap_cons, List.mem_cons]
            exact Or.inr ho')) hP.2⟩

lemma walkOptions_option {σ : Type} (body : UInt8 → ℕ → List UInt8 → σ → Option σ) (o : DhcpOption)
    (items : List Item) (rest : List UInt8) (s : σ) :
    walkOptions body (optionArea (.option o :: items) rest) s =
      (body o.tag o.data.length (o.data ++ optionArea items rest) s).bind
        (walkOptions body (optionArea items rest)) := by
  have hlen : (UInt8.ofNat o.data.length).toNat = o.data.length := by
    rw [UInt8.toNat_ofNat']
    exact Nat.mod_eq_of_lt o.length_lt
  rw [optionArea_option, walkOptions_cons o.tag_ne_end, hlen, List.drop_left]

section
variable {σ : Type} {body : UInt8 → ℕ → List UInt8 → σ → Option σ}
  (hpad : ∀ n data s, body DHCP_PAD n data s = some s) (rest : List UInt8)
include hpad

/-- The round of the loop at a pair of `PAD` bytes: the second one is the length of the first. -/
lemma walkOptions_pads (items : List Item) (s : σ) :
    walkOptions body (optionArea (.pad :: .pad :: items) rest) s =
      walkOptions body (optionArea items rest) s := by
  rw [optionArea_pads, walkOptions_cons (by decide), hpad, Option.bind_some]
  rfl

/-- **The walk meets the options one after the other**, if the `PAD` bytes come in pairs. -/
lemma walkOptions_area (effect : DhcpOption → σ → σ) (items : List Item) : ∀ s : σ,
    PaddedInPairs items →
    AtOptions (fun o after => ∀ s, body o.tag o.data.length (o.data ++ after) s = some (effect o s))
      rest items →
    walkOptions body (optionArea items rest) s =
      some ((options items).foldl (fun s o => effect o s) s) := by
  induction items using PaddedInPairs.induct with
  | case1 => intro s _ _; exact walkOptions_end rest s
  | case2 items ih =>
      intro s hpairs hbody
      rw [walkOptions_pads hpad]
      exact ih s hpairs hbody
  | case3 items hno =>
      intro s hpairs _
      rcases items with _ | ⟨_ | o, items⟩
      · exact absurd hpairs id
      · exact absurd rfl (hno items)
      · exact absurd hpairs id
  | case4 o items ih =>
      intro s hpairs hbody
      rw [walkOptions_option, hbody.1, Option.bind_some, ih _ hpairs hbody.2]
      rfl

/-- If the walk has a result, the body has one at each option. -/
lemma body_of_walkOptions (items : List Item) : ∀ s s' : σ, PaddedInPairs items →
    walkOptions body (optionArea items rest) s = some s' →
    AtOptions (fun o after => ∃ s s', body o.tag o.data.length (o.data ++ after) s = some s')
      rest items := by
  induction items using PaddedInPairs.induct with
  | case1 => intro s s' _ _; trivial
  | case2 items ih =>
      intro s s' hpairs h
      rw [walkOptions_pads hpad] at h
      exact ih s s' hpairs h
  | case3 items hno =>
      intro s s' hpairs _
      rcases items with _ | ⟨_ | o, items⟩
      · exact absurd hpairs id
      · exact absurd rfl (hno items)
      · exact absurd hpairs id
  | case4 o items ih =>
      intro s s' hpairs h
      rw [walkOptions_option, Option.bind_eq_some_iff] at h
      obtain ⟨s₁, hs₁, h⟩ := h
      exact ⟨⟨s, s₁, hs₁⟩, ih s₁ s' hpairs h⟩

end

/-- What a fold over the options leaves in a place that only the options with one tag write to,
if there is at most one of them. -/
lemma foldl_value {σ β : Type} {effect : DhcpOption → σ → σ} (get : σ → β) {tag : UInt8}
    {val : List UInt8 → β}
    (hget : ∀ o s, get (effect o s) = if o.tag = tag then val o.data else get s)
    (os : List DhcpOption) : ∀ s : σ, (os.filter fun o => o.tag = tag).length ≤ 1 →
      get (os.foldl (fun s o => effect o s) s) =
        (((os.find? fun o => o.tag = tag).map DhcpOption.data).map val).getD (get s) := by
  induction os with
  | nil => intro s _; rfl
  | cons o os ih =>
      intro s honce
      rw [List.foldl_cons]
      by_cases ho : o.tag = tag
      · -- the options behind it have other tags
        have hnone : os.filter (fun o => o.tag = tag) = [] := by
          rw [List.filter_cons_of_pos (by simpa using ho), List.length_cons] at honce
          exact List.length_eq_zero_iff.1 (by omega)
        have hfind : os.find? (fun o => o.tag = tag) = none := by
          rw [List.find?_eq_none]
          exact List.filter_eq_nil_iff.1 hnone
        rw [ih _ (by rw [hnone]; simp), hfind, List.find?_cons_of_pos (by simpa using ho), hget,
          if_pos ho]
        rfl
      · rw [List.filter_cons_of_neg (by simpa using ho)] at honce
        rw [ih _ honce, List.find?_cons_of_neg (by simpa using ho), hget, if_neg ho]

end DeviceTools.Dhcp
