import GovernanceCache.Proofs.RevisionLaws
import Mathlib.Data.List.Nodup
import Mathlib.Data.Set.Function

/-!
# What a revision hashes

A composed revision hashes its parts in order, each closed by a null byte.

1. A text without a null character has no null byte, so that closed parts can be cut out of their
   bytes again (`splitOn_closedBytes`). Two lists of parts are hashed alike exactly if one is a
   permutation of the other (`hashedBytes_eq_iff`).
2. The sixteen digits of a revision give its hash back (`hex16_injective`). So revisions of other
   parts agree only if the hash of other bytes does (`compose_seals`).
3. A record is one part: its key, a colon and its revision. Keys are bound to their revisions
   exactly if none of them goes on after another one with a colon (`apart_iff_told`).
-/

namespace GovernanceCache.Revision

variable {text : String} {parts xs ys : List String}

/-! ## Closed parts -/

/-- The text holds no null character. -/
def NullFree (text : String) : Prop := '\x00' ∉ text.toList

instance (text : String) : Decidable (NullFree text) := inferInstanceAs (Decidable (¬ _))

theorem toList_eq_data_toList (bytes : ByteArray) : bytes.toList = bytes.data.toList := by
  have hloop : ∀ i read, ByteArray.toList.loop bytes i read =
      read.reverse ++ bytes.data.toList.drop i := by
    intro i read
    fun_induction ByteArray.toList.loop bytes i read with
    | case1 i read h ih =>
      have hi : i < bytes.data.toList.length := by simpa using h
      rw [ih, List.drop_eq_getElem_cons hi]
      simp [ByteArray.get!, h]
    | case2 i read h =>
      rw [List.drop_eq_nil_of_le (by simpa using Nat.le_of_not_lt h), List.append_nil]
  exact hloop 0 []

theorem bytes_eq_flatMap (text : String) :
    text.toUTF8.toList = text.toList.flatMap String.utf8EncodeChar := by
  have hencode : text.toUTF8 = (text.toList.flatMap String.utf8EncodeChar).toByteArray :=
    String.utf8Encode_toList.symm
  rw [hencode, toList_eq_data_toList, List.toList_data_toByteArray]

theorem bytes_injective : Function.Injective fun text : String => text.toUTF8.toList := by
  intro s t h
  simp only [toList_eq_data_toList, Array.toList_inj] at h
  exact String.toByteArray_inj.mp (ByteArray.ext h)

theorem zero_ne_ofNat {n : Nat} (h : 0 < n % 256) : (0 : UInt8) ≠ UInt8.ofNat n := by
  intro heq
  have hmod : 0 = n % 256 := by
    rw [← UInt8.toNat_ofNat', ← heq]
    rfl
  omega

/-- Only the null character is written with a null byte. -/
theorem zero_notMem_utf8EncodeChar {c : Char} (h : c ≠ '\x00') :
    (0 : UInt8) ∉ String.utf8EncodeChar c := by
  have hval : 0 < c.val.toNat :=
    Nat.pos_of_ne_zero fun hzero => h (Char.ext (UInt32.toNat_inj.mp hzero))
  rw [String.utf8EncodeChar.eq_1]
  split
  · simp only [List.mem_singleton]
    exact zero_ne_ofNat (by omega)
  · split
    · simp only [List.mem_cons, List.not_mem_nil, or_false, not_or]
      exact ⟨zero_ne_ofNat (by omega), zero_ne_ofNat (by omega)⟩
    · split
      · simp only [List.mem_cons, List.not_mem_nil, or_false, not_or]
        exact ⟨zero_ne_ofNat (by omega), zero_ne_ofNat (by omega), zero_ne_ofNat (by omega)⟩
      · simp only [List.mem_cons, List.not_mem_nil, or_false, not_or]
        exact ⟨zero_ne_ofNat (by omega), zero_ne_ofNat (by omega), zero_ne_ofNat (by omega),
          zero_ne_ofNat (by omega)⟩

theorem NullFree.zero_notMem (h : NullFree text) : 0 ∉ text.toUTF8.toList := by
  rw [bytes_eq_flatMap, List.mem_flatMap]
  rintro ⟨c, hc, hzero⟩
  refine zero_notMem_utf8EncodeChar ?_ hzero
  rintro rfl
  exact h hc

/-- The parts are cut out of the bytes at the null bytes that close them. -/
theorem splitOn_closedBytes (h : ∀ part ∈ parts, NullFree part) :
    (parts.flatMap closedBytes).splitOn 0 = parts.map (fun part => part.toUTF8.toList) ++ [[]] := by
  induction parts with
  | nil => rfl
  | cons part rest ih =>
    obtain ⟨hpart, hrest⟩ := List.forall_mem_cons.mp h
    have hcut : (part :: rest).flatMap closedBytes =
        part.toUTF8.toList ++ 0 :: rest.flatMap closedBytes := by
      rw [List.flatMap_cons, closedBytes, List.append_assoc]
      rfl
    rw [hcut, List.splitOn_append_cons_self_of_not_mem hpart.zero_notMem, ih hrest]
    rfl

theorem flatMap_closedBytes_injective (hxs : ∀ x ∈ xs, NullFree x) (hys : ∀ y ∈ ys, NullFree y)
    (h : xs.flatMap closedBytes = ys.flatMap closedBytes) : xs = ys := by
  have hcut := congrArg (List.splitOn 0) h
  rw [splitOn_closedBytes hxs, splitOn_closedBytes hys] at hcut
  exact List.map_injective_iff.mpr bytes_injective (List.append_cancel_right hcut)

theorem mem_sortParts {part : String} : part ∈ sortParts parts ↔ part ∈ parts :=
  List.mem_mergeSort

/-- Parts are hashed alike exactly if they are the same but for their order. -/
theorem hashedBytes_eq_iff (hxs : ∀ x ∈ xs, NullFree x) (hys : ∀ y ∈ ys, NullFree y) :
    hashedBytes xs = hashedBytes ys ↔ ys.Perm xs := by
  constructor
  · intro h
    have hsorted : sortParts xs = sortParts ys := flatMap_closedBytes_injective
      (fun x hx => hxs x (mem_sortParts.mp hx)) (fun y hy => hys y (mem_sortParts.mp hy)) h
    have hys : (sortParts ys).Perm ys := List.mergeSort_perm ys _
    rw [← hsorted] at hys
    exact hys.symm.trans (List.mergeSort_perm xs _)
  · exact fun h => hashedBytes_perm h.symm

/-! ## Digits -/

/-- The lower-case hexadecimal digits, in the order of their values. -/
def hexDigits : List Char := "0123456789abcdef".toList

/-- The number that hexadecimal digits stand for. -/
def hexValue (digits : List Char) : Nat :=
  digits.foldl (fun n digit => 16 * n + hexDigits.idxOf digit) 0

/-- The text consists of sixteen lower-case hexadecimal digits. -/
structure IsHex16 (text : String) : Prop where
  length : text.length = 16
  digits : ∀ c ∈ text.toList, c ∈ hexDigits

theorem digitChar_mem : ∀ n < 16, n.digitChar ∈ hexDigits := by decide

theorem idxOf_digitChar : ∀ n < 16, hexDigits.idxOf n.digitChar = n := by decide

theorem toDigits_subset (n : Nat) : ∀ c ∈ Nat.toDigits 16 n, c ∈ hexDigits := by
  induction n using Nat.strongRecOn with
  | ind n ih =>
    rw [Nat.toDigits_eq_if (by decide)]
    split
    · rename_i hlt
      exact List.forall_mem_singleton.mpr (digitChar_mem n hlt)
    · intro c hc
      rcases List.mem_append.mp hc with hc | hc
      · exact ih (n / 16) (by omega) c hc
      · rw [List.mem_singleton.mp hc]
        exact digitChar_mem (n % 16) (by omega)

theorem hexValue_toDigits (n : Nat) : hexValue (Nat.toDigits 16 n) = n := by
  induction n using Nat.strongRecOn with
  | ind n ih =>
    rw [Nat.toDigits_eq_if (by decide)]
    split
    · rename_i hlt
      show 16 * 0 + hexDigits.idxOf n.digitChar = n
      rw [idxOf_digitChar n hlt]
      omega
    · have hlast : hexValue (Nat.toDigits 16 (n / 16) ++ [(n % 16).digitChar]) =
          16 * hexValue (Nat.toDigits 16 (n / 16)) + hexDigits.idxOf (n % 16).digitChar :=
        List.foldl_concat ..
      rw [hlast, ih (n / 16) (by omega), idxOf_digitChar _ (by omega)]
      omega

/-- Zeros in front count for nothing. -/
theorem hexValue_replicate_append (count : Nat) (digits : List Char) :
    hexValue (List.replicate count '0' ++ digits) = hexValue digits := by
  induction count with
  | zero => rfl
  | succ count ih =>
    rw [← ih]
    rfl

theorem hexValue_hex16 (n : UInt64) : hexValue (hex16 n).toList = n.toNat := by
  unfold hex16
  rw [String.toList_ofList, hexValue_replicate_append, hexValue_toDigits]

theorem hex16_injective : Function.Injective hex16 := by
  intro m n h
  rw [← UInt64.toNat_inj, ← hexValue_hex16, h, hexValue_hex16]

theorem hex16_isHex16 (n : UInt64) : IsHex16 (hex16 n) where
  length := hex16_length n
  digits c hc := by
    unfold hex16 at hc
    rw [String.toList_ofList] at hc
    rcases List.mem_append.mp hc with hc | hc
    · rw [List.eq_of_mem_replicate hc]
      decide
    · exact toDigits_subset _ c hc

/-- **Composed revisions.** What is hashed tells the parts but for their order. So parts in another
order give the same revision, and other parts give it only if the hash of other bytes is the same.
Whatever the parts, a revision is never empty. -/
theorem compose_seals (hxs : ∀ x ∈ xs, NullFree x) (hys : ∀ y ∈ ys, NullFree y) :
    (hashedBytes xs = hashedBytes ys ↔ ys.Perm xs) ∧
      (ys.Perm xs → compose ys = compose xs) ∧
      (¬ ys.Perm xs → compose xs = compose ys →
        hashedBytes xs ≠ hashedBytes ys ∧ fnv1a (hashedBytes xs) = fnv1a (hashedBytes ys)) ∧
      ∀ parts, IsHex16 (compose parts).text ∧ (compose parts).isEmpty = false := by
  refine ⟨hashedBytes_eq_iff hxs hys, compose_perm, ?_, fun parts => ⟨hex16_isHex16 _, ?_⟩⟩
  · intro hother hsame
    refine ⟨fun h => hother ((hashedBytes_eq_iff hxs hys).mp h), ?_⟩
    exact hex16_injective (congrArg Revision.text hsame)
  · unfold isEmpty
    rw [String.isEmpty_eq_false_iff]
    exact compose_text_ne parts

/-- Repeated and empty parts count, and so does where a part ends. -/
theorem repeated_parts_told :
    hashedBytes ["b", "", "a", "b"] = hashedBytes ["", "a", "b", "b"] ∧
      hashedBytes ["b", "", "a"] ≠ hashedBytes ["b", "a", "b"] ∧
      hashedBytes ["ab", "c"] ≠ hashedBytes ["a", "bc"] := by
  refine ⟨(compose_seals (by decide) (by decide)).1.mpr (by decide), ?_, ?_⟩
  · exact fun h => absurd ((compose_seals (by decide) (by decide)).1.mp h) (by decide)
  · exact fun h => absurd ((compose_seals (by decide) (by decide)).1.mp h) (by decide)

/-! ## Keys and revisions -/

variable {keys : List String} {key key' revision revision' : String}
  {records records' : List (String × String)}

/-- The bytes that the revision of a set of records hashes. -/
def recordBytes (records : List (String × String)) : List UInt8 :=
  hashedBytes (records.map fun r => boundPart r.1 r.2)

/-- The records belong to some of the keys, and their revisions hold no null character. -/
def BelongTo (keys : List String) (records : List (String × String)) : Prop :=
  ∀ r ∈ records, r.1 ∈ keys ∧ NullFree r.2

/-- No key goes on after another one with a colon. -/
def Apart (keys : List String) : Prop :=
  ∀ key ∈ keys, ∀ key' ∈ keys, ¬ key.toList ++ [':'] <+: key'.toList

instance (keys : List String) : Decidable (Apart keys) :=
  inferInstanceAs (Decidable (∀ key ∈ keys, ∀ key' ∈ keys, ¬ _))

theorem boundPart_toList (key revision : String) :
    (boundPart key revision).toList = key.toList ++ [':'] ++ revision.toList := by
  unfold boundPart
  rw [String.toList_append, String.toList_append]
  rfl

theorem NullFree.boundPart (hkey : NullFree key) (hrevision : NullFree revision) :
    NullFree (boundPart key revision) := by
  unfold NullFree at *
  rw [boundPart_toList, List.mem_append, List.mem_append]
  rintro ((h | h) | h)
  · exact hkey h
  · cases List.mem_singleton.mp h
  · exact hrevision h

/-- Two keys of one part are equal, or one of them goes on after the other one with a colon. -/
theorem eq_or_goesOn_of_boundPart_eq (h : boundPart key revision = boundPart key' revision') :
    (key = key' ∧ revision = revision') ∨ key.toList ++ [':'] <+: key'.toList ∨
      key'.toList ++ [':'] <+: key.toList := by
  have h : key.toList ++ ':' :: revision.toList = key'.toList ++ ':' :: revision'.toList := by
    have h := congrArg String.toList h
    rw [boundPart_toList, boundPart_toList, List.append_assoc, List.append_assoc] at h
    exact h
  rcases List.append_eq_append_iff.mp h with ⟨more, hmore, hrest⟩ | ⟨more, hmore, hrest⟩
  · rcases more with _ | ⟨c, more⟩
    · rw [List.append_nil] at hmore
      exact Or.inl ⟨(String.toList_injective hmore).symm,
        String.toList_injective (List.cons.inj hrest).2⟩
    · obtain ⟨rfl, -⟩ := List.cons.inj hrest
      exact Or.inr (Or.inl ⟨more, by rw [hmore, List.append_assoc]; rfl⟩)
  · rcases more with _ | ⟨c, more⟩
    · rw [List.append_nil] at hmore
      exact Or.inl ⟨String.toList_injective hmore,
        (String.toList_injective (List.cons.inj hrest).2).symm⟩
    · obtain ⟨rfl, -⟩ := List.cons.inj hrest
      exact Or.inr (Or.inr ⟨more, by rw [hmore, List.append_assoc]; rfl⟩)

/-- What tells the members of two lists apart can be taken off a permutation. -/
theorem perm_of_map_perm {α β : Type} [Nonempty α] {f : α → β} {l l' : List α}
    (hf : ∀ a ∈ l ++ l', ∀ b ∈ l ++ l', f a = f b → a = b) (h : (l.map f).Perm (l'.map f)) :
    l.Perm l' := by
  have hinj : Set.InjOn f {a | a ∈ l ++ l'} := fun a ha b hb => hf a ha b hb
  obtain ⟨back, hback⟩ : ∃ back : β → α, ∀ a ∈ l ++ l', back (f a) = a :=
    ⟨_, hinj.leftInvOn_invFunOn⟩
  have hl : (l.map f).map back = l := by
    rw [List.map_map]
    exact (List.map_congr_left fun a ha => hback a (List.mem_append_left _ ha)).trans l.map_id
  have hl' : (l'.map f).map back = l' := by
    rw [List.map_map]
    exact (List.map_congr_left fun a ha => hback a (List.mem_append_right _ ha)).trans l'.map_id
  rw [← hl, ← hl']
  exact h.map back

theorem recordBytes_eq_iff (hkeys : ∀ key ∈ keys, NullFree key) (hr : BelongTo keys records)
    (hr' : BelongTo keys records') : recordBytes records = recordBytes records' ↔
      (records'.map fun r => boundPart r.1 r.2).Perm (records.map fun r => boundPart r.1 r.2) := by
  have hnull : ∀ {records}, BelongTo keys records →
      ∀ part ∈ records.map fun r => boundPart r.1 r.2, NullFree part := by
    intro records hr part hpart
    obtain ⟨r, hmem, rfl⟩ := List.mem_map.mp hpart
    exact (hkeys _ (hr r hmem).1).boundPart (hr r hmem).2
  exact hashedBytes_eq_iff (hnull hr) (hnull hr')

/-- Keys that stand apart are bound to their revisions. -/
theorem recordBytes_eq_iff_of_apart (hkeys : ∀ key ∈ keys, NullFree key) (h : Apart keys)
    (hr : BelongTo keys records) (hr' : BelongTo keys records') :
    recordBytes records = recordBytes records' ↔ records'.Perm records := by
  rw [recordBytes_eq_iff hkeys hr hr']
  refine ⟨fun hperm => perm_of_map_perm ?_ hperm, fun hperm => hperm.map _⟩
  intro r hmem r' hmem' hpart
  have hkey : ∀ r ∈ records' ++ records, r.1 ∈ keys := by
    intro r hmem
    rcases List.mem_append.mp hmem with hmem | hmem
    · exact (hr' r hmem).1
    · exact (hr r hmem).1
  rcases eq_or_goesOn_of_boundPart_eq hpart with ⟨hone, htwo⟩ | hon | hon
  · exact Prod.ext hone htwo
  · exact absurd hon (h _ (hkey r hmem) _ (hkey r' hmem'))
  · exact absurd hon (h _ (hkey r' hmem') _ (hkey r hmem))

/-- A key that goes on after another one with a colon makes one part with it. -/
theorem boundPart_eq_of_goesOn (h : key.toList ++ [':'] <+: key'.toList) :
    ∃ more : String, (∀ c ∈ more.toList, c ∈ key'.toList) ∧
      boundPart key more = boundPart key' "" := by
  obtain ⟨more, hmore⟩ := h
  refine ⟨String.ofList (more ++ [':']), ?_, ?_⟩
  · intro c hc
    rw [String.toList_ofList] at hc
    rw [← hmore]
    rcases List.mem_append.mp hc with hc | hc
    · exact List.mem_append_right _ hc
    · exact List.mem_append_left _ (List.mem_append_right _ hc)
  · rw [← String.toList_inj, boundPart_toList, boundPart_toList, String.toList_ofList, ← hmore]
    simp

/-- Under distinct keys the same records in any order are the same revisions in turn. -/
theorem eq_of_zip_perm {revisions revisions' : List String} (hnodup : keys.Nodup)
    (hlength : revisions.length = keys.length) (hlength' : revisions'.length = keys.length)
    (h : (keys.zip revisions').Perm (keys.zip revisions)) : revisions = revisions' := by
  refine List.ext_getElem (hlength.trans hlength'.symm) fun i hi hi' => ?_
  have hzip : i < (keys.zip revisions).length := by
    rw [List.length_zip]
    omega
  have hmem : (keys[i], revisions[i]) ∈ keys.zip revisions := by
    have hget := List.getElem_mem hzip
    rw [List.getElem_zip] at hget
    exact hget
  obtain ⟨j, hj, heq⟩ := List.getElem_of_mem (h.mem_iff.mpr hmem)
  rw [List.getElem_zip] at heq
  obtain ⟨hkey, hrevision⟩ := Prod.mk.inj heq
  obtain rfl : j = i := (hnodup.getElem_inj_iff).mp hkey
  exact hrevision.symm

/-- **Keys are bound to their revisions** exactly if none of them goes on after another one with a
colon: then collections of records are hashed alike only if they are the same but for their order.
So moving revisions between such keys changes what is hashed. -/
theorem apart_iff_told (hkeys : ∀ key ∈ keys, NullFree key) :
    (Apart keys ↔ ∀ records records', BelongTo keys records → BelongTo keys records' →
      (recordBytes records = recordBytes records' ↔ records'.Perm records)) ∧
    (Apart keys → keys.Nodup → ∀ revisions revisions' : List String,
      revisions.length = keys.length → revisions'.length = keys.length →
      (∀ r ∈ revisions, NullFree r) → (∀ r ∈ revisions', NullFree r) →
      recordBytes (keys.zip revisions) = recordBytes (keys.zip revisions') →
      revisions = revisions') := by
  refine ⟨⟨fun h records records' => recordBytes_eq_iff_of_apart hkeys h, ?_⟩, ?_⟩
  · intro h key hkey key' hkey' hon
    obtain ⟨more, hmem, hpart⟩ := boundPart_eq_of_goesOn hon
    have hmore : NullFree more := fun hc => hkeys key' hkey' (hmem _ hc)
    have hempty : NullFree "" := by decide
    have hr : BelongTo keys [(key, more)] := List.forall_mem_singleton.mpr ⟨hkey, hmore⟩
    have hr' : BelongTo keys [(key', "")] := List.forall_mem_singleton.mpr ⟨hkey', hempty⟩
    have hsame : recordBytes [(key, more)] = recordBytes [(key', "")] := by
      unfold recordBytes
      rw [List.map_singleton, List.map_singleton, hpart]
    -- the two records differ in their keys
    have hperm := (h _ _ hr hr').mp hsame
    obtain ⟨rfl, -⟩ := Prod.mk.inj (List.singleton_perm_singleton.mp hperm)
    have hlength := hon.length_le
    rw [List.length_append, List.length_singleton] at hlength
    omega
  · intro h hnodup revisions revisions' hlength hlength' hnull hnull' hsame
    have hbelong : ∀ {revisions : List String}, (∀ r ∈ revisions, NullFree r) →
        BelongTo keys (keys.zip revisions) := by
      intro revisions hnull r hr
      have hmem := List.of_mem_zip hr
      exact ⟨hmem.1, hnull _ hmem.2⟩
    exact eq_of_zip_perm hnodup hlength hlength'
      ((recordBytes_eq_iff_of_apart hkeys h (hbelong hnull) (hbelong hnull')).mp hsame)

/-- Hosts and ports may stand in keys, as long as no key is another one with a port. -/
theorem swapped_ports_told :
    Apart ["h:1", "h:2", "i"] ∧
      recordBytes [("h:1", "r"), ("h:2", "s"), ("i", "1:t")] ≠
        recordBytes [("h:1", "s"), ("h:2", "r"), ("i", "1:t")] := by
  have happart : Apart ["h:1", "h:2", "i"] := by decide
  have hnull : ∀ key ∈ ["h:1", "h:2", "i"], NullFree key := by decide
  refine ⟨happart, fun h => ?_⟩
  have hsame := (apart_iff_told hnull).2 happart (by decide) ["r", "s", "1:t"] ["s", "r", "1:t"]
    rfl rfl (by decide) (by decide) h
  exact absurd hsame (by decide)

/-- Three keys of which each goes on after the next one change their revisions in turn, and the same
bytes are hashed. -/
theorem moved_revisions_hashed_alike :
    let keys := ["h:1:1", "h:1", "h"]
    let revisions := ["1:r", "r", "1:1:r"]
    let moved := ["r", "1:1:r", "1:r"]
    (∀ text ∈ keys ++ revisions ++ moved, NullFree text) ∧ moved.Perm revisions ∧
      recordBytes (keys.zip revisions) = recordBytes (keys.zip moved) ∧
      ¬ (keys.zip moved).Perm (keys.zip revisions) := by
  exact ⟨by decide, by decide, hashedBytes_perm (by decide), by decide⟩

end GovernanceCache.Revision
