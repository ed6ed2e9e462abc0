/-
Domain names in DNS packets.

A name is written as labels, each behind its length, up to the root label of length 0 or a
pointer to a name that stands earlier in the packet.  `dns_read_response_domainname` copies the
labels to a buffer with periods between them.  `NameAt` is the format of RFC 1035 and
`readLabels_eq` says what the function does with a name in this format: it writes the text of
the name, except that behind the labels of a name that ends with a pointer to the root it
leaves a period and no terminating zero.
-/
import DeviceTools.Lib.ByteWord
import DeviceTools.Lib.Memory

namespace DeviceTools.Dns

open ByteWord Memory

def MAX_DOMAIN_LENGTH : ℕ := 255
def DNS_POINTER_FLAG : ℕ := 0xc0
def DNS_POINTER_OFFSET_MASK : ℕ := 0x3fff
def DNS_LABEL_LENGTH_MASK : ℕ := 0x3f

/-- The period between labels. -/
def PERIOD : UInt8 := 0x2E

/-- The 16-bit word at an address, copied and converted by `ntohs`. -/
def ntohsAt (m : Bytes) (i : ℕ) : ℕ := beNat (slice m i 2)

/-- A store to a buffer of `MAX_DOMAIN_LENGTH + 1` bytes, with no result behind its end. -/
def store (dest : Bytes) (d : ℕ) (xs : List UInt8) : Option Bytes :=
  if MAX_DOMAIN_LENGTH + 1 < d + xs.length then none else some (poke dest d xs)

/-- The loop of `dns_read_response_domainname` from a label on: the number of bytes read, `none`
for -1, and the buffer.  There is no result when the fuel runs out or a store is behind the
end of the buffer.  The function calls itself at the target of a pointer, at an index that is
not behind the packet, and does not look at what that call returns. -/
def readLabels (packet : Bytes) (packetSize : ℕ) :
    ℕ → ℕ → ℕ → Bytes → ℕ → Option (Option ℕ × Bytes)
  | 0, _, _, _, _ => none
  | fuel + 1, packetIndex, bytesRead, dest, d =>
      let labelLength := (packet packetIndex).toNat
      if labelLength = 0 then some (some (bytesRead + 1), dest)
      else
        let period := if 0 < bytesRead then [PERIOD] else []
        (store dest d period).bind fun dest =>
          if labelLength &&& DNS_POINTER_FLAG = DNS_POINTER_FLAG then
            let offset := ntohsAt packet packetIndex &&& DNS_POINTER_OFFSET_MASK
            if packetSize ≤ offset then some (none, dest)
            else (readLabels packet packetSize fuel offset 0 dest (d + period.length)).map
              fun r => (some (bytesRead + 2), r.2)
          else
            let length := labelLength &&& DNS_LABEL_LENGTH_MASK
            if packetSize ≤ packetIndex + 1 + length then some (none, dest)
            else
              (store dest (d + period.length) (slice packet (packetIndex + 1) length ++ [0])).bind
                fun dest => readLabels packet packetSize fuel (packetIndex + 1 + length)
                  (bytesRead + length + 1) dest (d + period.length + length)

/-- `dns_read_response_domainname`. -/
def dnsReadResponseDomainname (packet : Bytes) (packetSize fuel packetIndex : ℕ) (dest : Bytes) :
    Option (Option ℕ × Bytes) :=
  if packetSize ≤ packetIndex then some (none, dest)
  else readLabels packet packetSize fuel packetIndex 0 dest 0

/-! ### The format -/

/-- At `pos` in the packet stands the name with the given labels, in the given number of bytes.
A pointer points backwards.  The flag says that the name is *dangling*: that labels are written
in front of a pointer to the root. -/
inductive NameAt (packet : Bytes) (size : ℕ) : ℕ → List (List UInt8) → Bool → ℕ → Prop
  | root {pos : ℕ} (hpos : pos < size) (h0 : packet pos = 0) : NameAt packet size pos [] false 1
  | label {pos : ℕ} {l : List UInt8} {ls : List (List UInt8)} {dangling : Bool} {n : ℕ}
      (hl : 0 < l.length) (hl63 : l.length ≤ 63) (hb : (packet pos).toNat = l.length)
      (hs : slice packet (pos + 1) l.length = l)
      (hrest : NameAt packet size (pos + 1 + l.length) ls dangling n) :
      NameAt packet size pos (l :: ls)
        (dangling || (ls.isEmpty && packet (pos + 1 + l.length) != 0)) (l.length + 1 + n)
  | pointer {pos target : ℕ} {ls : List (List UInt8)} {dangling : Bool} {n : ℕ}
      (hpos : pos + 1 < size) (hb : 192 ≤ (packet pos).toNat)
      (ht : ntohsAt packet pos % 2 ^ 14 = target) (hback : target < pos)
      (hrest : NameAt packet size target ls dangling n) : NameAt packet size pos ls dangling 2

/-- The text of a name. -/
def text : List (List UInt8) → List UInt8
  | [] => []
  | [l] => l
  | l :: ls => l ++ PERIOD :: text ls

/-- The number of bytes of a name without compression. -/
def wireLength (labels : List (List UInt8)) : ℕ := (labels.map fun l => l.length + 1).sum + 1

/-- What the function leaves in its buffer. -/
def written (labels : List (List UInt8)) (dangling : Bool) : List UInt8 :=
  if labels = [] then [] else text labels ++ [if dangling then PERIOD else 0]

lemma text_cons (l : List UInt8) {ls : List (List UInt8)} (h : ls ≠ []) :
    text (l :: ls) = l ++ PERIOD :: text ls := by
  cases ls with
  | nil => exact absurd rfl h
  | cons l' ls => rfl

lemma length_text : ∀ {labels : List (List UInt8)}, labels ≠ [] →
    (text labels).length + 2 = wireLength labels := by
  intro labels
  induction labels with
  | nil => intro h; exact absurd rfl h
  | cons l ls ih =>
      intro _
      by_cases hls : ls = []
      · subst hls
        simp [text, wireLength]
      · have := ih hls
        rw [text_cons l hls]
        simp only [wireLength, List.map_cons, List.sum_cons, List.length_append,
          List.length_cons] at this ⊢
        omega

lemma length_written_le (labels : List (List UInt8)) (dangling : Bool) :
    (written labels dangling).length + 1 ≤ wireLength labels := by
  by_cases h : labels = []
  · simp [written, h, wireLength]
  · have := length_text h
    rw [written, if_neg h, List.length_append, List.length_singleton]
    omega

variable {packet : Bytes} {size pos : ℕ} {labels : List (List UInt8)} {dangling : Bool} {n : ℕ}

lemma NameAt.pos_lt (h : NameAt packet size pos labels dangling n) : pos < size := by
  induction h with
  | root hpos _ => exact hpos
  | label hl hl63 hb hs hrest ih => omega
  | pointer hpos hb ht hback hrest ih => omega

/-- Only the root starts with a zero. -/
lemma NameAt.eq_nil (h : NameAt packet size pos labels dangling n) (h0 : packet pos = 0) :
    labels = [] ∧ dangling = false ∧ n = 1 := by
  cases h with
  | root _ _ => exact ⟨rfl, rfl, rfl⟩
  | label hl hl63 hb hs hrest => rw [h0] at hb; simp at hb; omega
  | pointer hpos hb ht hback hrest => rw [h0] at hb; simp at hb

/-- A root that is not a zero is a pointer, and not dangling. -/
lemma NameAt.not_dangling (h : NameAt packet size pos [] dangling n) : dangling = false := by
  generalize hls : ([] : List (List UInt8)) = ls at h
  induction h with
  | root _ _ => rfl
  | label hl hl63 hb hs hrest ih => simp at hls
  | pointer hpos hb ht hback hrest ih => exact ih hls

/-! ### Reading a name -/

lemma pointer_flag_iff : ∀ k < 256, (k &&& DNS_POINTER_FLAG = DNS_POINTER_FLAG ↔ 192 ≤ k) := by
  decide +kernel

lemma label_mask : ∀ k < 64, k &&& DNS_LABEL_LENGTH_MASK = k := by
  decide +kernel

lemma offset_mask (k : ℕ) : k &&& DNS_POINTER_OFFSET_MASK = k % 2 ^ 14 :=
  Nat.and_two_pow_sub_one_eq_mod k 14

lemma store_eq {dest : Bytes} {d : ℕ} {xs : List UInt8} (h : d + xs.length ≤ 256) :
    store dest d xs = some (poke dest d xs) := by
  rw [store, if_neg]
  simp only [MAX_DOMAIN_LENGTH]
  omega

/-- The period in front of a label that is not the first one. -/
def period (bytesRead : ℕ) : List UInt8 := if 0 < bytesRead then [PERIOD] else []

lemma period_zero : period 0 = [] := rfl

/-- The text behind a label: the zero of the label is left if the name ends there, and it is
replaced otherwise. -/
lemma poke_label {pos' : ℕ} {ls : List (List UInt8)} {m : ℕ}
    (hrest : NameAt packet size pos' ls dangling m) (dest : Bytes) (d : ℕ) (l : List UInt8) :
    poke (poke dest d (l ++ [0])) (d + l.length)
      (if packet pos' = 0 then [] else [PERIOD] ++ written ls dangling) =
    poke dest d (written (l :: ls) (dangling || (ls.isEmpty && packet pos' != 0))) := by
  by_cases h0 : packet pos' = 0
  · obtain ⟨rfl, rfl, -⟩ := hrest.eq_nil h0
    simp [h0, written, text]
  · rw [if_neg h0, List.singleton_append, poke_over]
    by_cases hls : ls = []
    · -- a pointer to the root
      subst hls
      have hd := hrest.not_dangling
      subst hd
      simp [h0, written, text]
    · have hempty : ls.isEmpty = false := by simpa using hls
      rw [written, written, if_neg hls, if_neg (List.cons_ne_nil l ls), text_cons l hls, hempty, Bool.false_and,
        Bool.or_false, List.append_assoc, List.cons_append]

/-- **Reading a name.**  With enough fuel, and if there is room for it, the function reads the
bytes of the name and leaves `written` in the buffer. -/
lemma readLabels_eq (h : NameAt packet size pos labels dangling n) : ∃ f₀, ∀ fuel ≥ f₀,
    ∀ (bytesRead : ℕ) (dest : Bytes) (d : ℕ),
      d + (period bytesRead).length + (written labels dangling).length ≤ 256 →
      readLabels packet size fuel pos bytesRead dest d = some (some (bytesRead + n),
        poke dest d (if packet pos = 0 then [] else period bytesRead ++ written labels dangling)) := by
  induction h with
  | @root pos hpos h0 =>
      refine ⟨1, fun fuel hfuel bytesRead dest d _ => ?_⟩
      obtain ⟨fuel, rfl⟩ := Nat.exists_eq_add_of_le' hfuel
      simp [readLabels, h0]
  | @label pos l ls dangling n hl hl63 hb hs hrest ih =>
      obtain ⟨f₀, ih⟩ := ih
      refine ⟨f₀ + 1, fun fuel hfuel bytesRead dest d hroom => ?_⟩
      obtain ⟨fuel, rfl⟩ : ∃ k, fuel = k + 1 := ⟨fuel - 1, by omega⟩
      have h0 : packet pos ≠ 0 := by
        intro hc
        rw [hc] at hb
        simp at hb
        omega
      have hlen : (written (l :: ls) (dangling || (ls.isEmpty &&
          packet (pos + 1 + l.length) != 0))).length = l.length + 1 + (written ls dangling).length := by
        by_cases hls : ls = []
        · simp [written, hls, text]
        · rw [written, written, if_neg hls, if_neg (by simp), text_cons l hls]
          simp only [List.length_append, List.length_cons, List.length_nil]
          omega
      rw [hlen] at hroom
      rw [readLabels]
      simp only [hb, label_mask l.length (by omega), hs]
      rw [if_neg (by omega), ← period, store_eq (by omega), Option.bind_some,
        if_neg (by rw [pointer_flag_iff _ (by omega)]; omega),
        if_neg (by have := hrest.pos_lt; omega),
        store_eq (by simp only [List.length_append, List.length_singleton]; omega), Option.bind_some]
      -- the rest of the name is written over the zero behind the label
      have hperiod : period (bytesRead + l.length + 1) = [PERIOD] := by simp [period]
      rw [ih fuel (by omega) _ _ _ (by rw [hperiod, List.length_singleton]; omega), hperiod,
        poke_label hrest, poke_append, if_neg h0]
      simp only [Option.some.injEq, Prod.mk.injEq, and_true]
      omega
  | @pointer pos target ls dangling n hpos hb ht hback hrest ih =>
      obtain ⟨f₀, ih⟩ := ih
      refine ⟨f₀ + 1, fun fuel hfuel bytesRead dest d hroom => ?_⟩
      obtain ⟨fuel, rfl⟩ : ∃ k, fuel = k + 1 := ⟨fuel - 1, by omega⟩
      have hlt : (packet pos).toNat < 256 := (packet pos).toNat_lt
      have h0 : packet pos ≠ 0 := by
        intro hc
        rw [hc] at hb
        simp at hb
      rw [readLabels]
      simp only [offset_mask, ht]
      rw [if_neg (by omega), ← period, store_eq (by omega), Option.bind_some,
        if_pos ((pointer_flag_iff _ hlt).2 hb), if_neg (by have := hrest.pos_lt; omega),
        ih fuel (by omega) 0 _ _ (by rw [period_zero, List.length_nil]; omega), Option.map_some,
        if_neg h0, period_zero, List.nil_append]
      -- the root at the target leaves the buffer as it is
      have hwritten : (if packet target = 0 then [] else written ls dangling) = written ls dangling := by
        split
        · next hz => rw [(hrest.eq_nil hz).1]; rfl
        · rfl
      rw [hwritten, poke_append]

end DeviceTools.Dns
