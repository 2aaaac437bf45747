import ArenaLab.BoundNonce

/-! Both hashed byte strings determine what they were built from. Every field
of a binding but the last has a fixed width, the salt ends the first string,
and the second string has fixed widths throughout. -/

namespace ArenaLab

theorem HexStr.bytes {n : Nat} (h : HexStr (2 * n)) :
    ∃ bs, HexText.fromHex h.text.toList = some bs ∧ HexText.toHex bs = h.text.toList ∧
      bs.length = n :=
  HexText.fromHex_lower n _ h.chars_length h.chars_lower

theorem HexStr.eq_of_chars {n : Nat} {a b : HexStr n} (h : a.text.toList = b.text.toList) : a = b :=
  HexStr.ext (String.toList_injective h)

theorem HexStr.eq_of_bytes {n : Nat} {a b : HexStr (2 * n)} {as bs : List UInt8}
    (ha : HexText.toHex as = a.text.toList) (hb : HexText.toHex bs = b.text.toList)
    (h : as = bs) : a = b :=
  HexStr.eq_of_chars (by rw [← ha, ← hb, h])

theorem jsonString_hex {n : Nat} (h : HexStr n) :
    jsonString h.text = '"' :: (h.text.toList ++ ['"']) := by
  have hone : ∀ c ∈ HexText.lowerDigits, jsonEscape c = [c] := HexText.forall_lower (by decide)
  have he : ∀ cs : List Char, (∀ c ∈ cs, c ∈ HexText.lowerDigits) → cs.flatMap jsonEscape = cs := by
    intro cs hc
    induction cs with
    | nil => rfl
    | cons c cs ih =>
      rw [List.flatMap_cons, hone c (hc c (by simp)), ih (fun x hx => hc x (by simp [hx]))]
      rfl
  rw [jsonString, he _ h.chars_lower]

def jsonMember (key : String) (value : List Char) : List Char := jsonString key ++ ':' :: value

theorem jsonMember_hex_length {n : Nat} (key : String) (h : HexStr n) :
    (jsonMember key (jsonString h.text)).length = (jsonString key).length + n + 3 := by
  have hl := h.chars_length
  simp only [jsonMember, jsonString_hex, List.length_append, List.length_cons, List.length_nil]
  omega

theorem jsonMember_hex_inj {n : Nat} {key : String} {a b : HexStr n}
    (h : jsonMember key (jsonString a.text) = jsonMember key (jsonString b.text)) : a = b := by
  have hv := List.append_cancel_left h
  rw [jsonString_hex, jsonString_hex] at hv
  have ht := (List.cons.inj (List.cons.inj hv).2).2
  exact HexStr.eq_of_chars (List.append_cancel_right ht)

theorem binding_members (b : Binding) :
    (sortKeys (jsonMembers b.toDict)).map Prod.snd =
      [jsonMember "admission_id" (jsonString b.admission_id.text),
        jsonMember "attestor" (jsonString b.attestor.text),
        jsonMember "connection_id" (jsonString b.connection_id.text),
        jsonMember "controller" (jsonString b.controller.text),
        jsonMember "game_session_id" (jsonString b.game_session_id.text),
        jsonMember "instance_id" (jsonString b.instance_id.text),
        jsonMember "peer_id" b.peer_id.value.repr.toList] := by
  simp [sortKeys, Binding.toDict, jsonMembers, jsonText, List.insertionSort, List.orderedInsert,
    jsonMember]

theorem commaJoin_cons_cons (p q : List Char) (ps : List (List Char)) :
    commaJoin (p :: q :: ps) = p ++ ',' :: commaJoin (q :: ps) := by
  simp [commaJoin]

theorem commaJoin_inj {p p' q q' : List Char} {ps ps' : List (List Char)}
    (hl : p.length = p'.length)
    (h : commaJoin (p :: q :: ps) = commaJoin (p' :: q' :: ps')) :
    p = p' ∧ commaJoin (q :: ps) = commaJoin (q' :: ps') := by
  rw [commaJoin_cons_cons, commaJoin_cons_cons] at h
  obtain ⟨hp, ht⟩ := List.append_inj h hl
  exact ⟨hp, (List.cons.inj ht).2⟩

theorem binding_text_inj {a b : Binding}
    (h : jsonText (.obj a.toDict) = jsonText (.obj b.toDict)) : a = b := by
  simp only [jsonText, binding_members, List.cons.injEq, true_and] at h
  have h := List.append_cancel_right h
  obtain ⟨h1, h⟩ := commaJoin_inj (by rw [jsonMember_hex_length, jsonMember_hex_length]) h
  obtain ⟨h2, h⟩ := commaJoin_inj (by rw [jsonMember_hex_length, jsonMember_hex_length]) h
  obtain ⟨h3, h⟩ := commaJoin_inj (by rw [jsonMember_hex_length, jsonMember_hex_length]) h
  obtain ⟨h4, h⟩ := commaJoin_inj (by rw [jsonMember_hex_length, jsonMember_hex_length]) h
  obtain ⟨h5, h⟩ := commaJoin_inj (by rw [jsonMember_hex_length, jsonMember_hex_length]) h
  obtain ⟨h6, h⟩ := commaJoin_inj (by rw [jsonMember_hex_length, jsonMember_hex_length]) h
  have hp : a.peer_id = b.peer_id := by
    have hm : jsonMember "peer_id" a.peer_id.value.repr.toList =
        jsonMember "peer_id" b.peer_id.value.repr.toList := by simpa [commaJoin] using h
    have hr := (List.cons.inj (List.append_cancel_left hm)).2
    have hv := Int.repr_injective (String.toList_injective hr)
    cases ha : a.peer_id
    cases hb : b.peer_id
    simpa [ha, hb] using hv
  cases a
  cases b
  simp only [Binding.mk.injEq]
  exact ⟨jsonMember_hex_inj h6, jsonMember_hex_inj h1, jsonMember_hex_inj h5, hp,
    jsonMember_hex_inj h3, jsonMember_hex_inj h4, jsonMember_hex_inj h2⟩

theorem encodeAscii_decode {cs : List Char} {out : List UInt8} (h : encodeAscii cs = some out) :
    out.map (fun b => Char.ofNat b.toNat) = cs := by
  simp only [encodeAscii] at h
  split at h
  · rename_i hc
    simp only [List.all_eq_true, decide_eq_true_eq] at hc
    rw [← Option.some.inj h, List.map_map, List.map_congr_left (g := id), List.map_id]
    intro c hm
    have hn := hc c hm
    have he : (UInt8.ofNat c.toNat).toNat = c.toNat := by
      rw [UInt8.toNat_ofNat']
      omega
    rw [Function.comp_apply, he, Char.ofNat_toNat, id]
  · cases h

theorem encodeAscii_inj {as bs : List Char} {out : List UInt8}
    (ha : encodeAscii as = some out) (hb : encodeAscii bs = some out) : as = bs :=
  (encodeAscii_decode ha).symm.trans (encodeAscii_decode hb)

def Ascii (cs : List Char) : Prop := ∀ c ∈ cs, c.toNat < 128

theorem Ascii.encode {cs : List Char} (h : Ascii cs) : (encodeAscii cs).isSome := by
  have hc : cs.all (·.toNat < 128) = true := by
    simpa [List.all_eq_true, Ascii] using h
  simp [encodeAscii, hc]

theorem Ascii.of_all {cs : List Char} (h : cs.all (fun c => c.toNat < 128) = true) : Ascii cs := by
  simpa [Ascii] using h

theorem Ascii.append {as bs : List Char} (ha : Ascii as) (hb : Ascii bs) : Ascii (as ++ bs) := by
  intro c hc
  exact (List.mem_append.mp hc).elim (ha c) (hb c)

theorem Ascii.cons {c : Char} {cs : List Char} (hc : c.toNat < 128) (h : Ascii cs) :
    Ascii (c :: cs) := by
  intro x hx
  rcases List.mem_cons.mp hx with rfl | hx
  · exact hc
  · exact h x hx

theorem commaJoin_ascii {parts : List (List Char)} (h : ∀ p ∈ parts, Ascii p) :
    Ascii (commaJoin parts) := by
  induction parts with
  | nil => intro c hc; simp [commaJoin] at hc
  | cons p ps ih =>
    cases ps with
    | nil => simpa [commaJoin] using h p (by simp)
    | cons q ps =>
      rw [commaJoin_cons_cons]
      exact (h p (by simp)).append (.cons (by decide) (ih (fun x hx => h x (by simp [hx]))))

theorem HexStr.ascii {n : Nat} (h : HexStr n) : Ascii (jsonString h.text) := by
  have hd : ∀ c ∈ HexText.lowerDigits, c.toNat < 128 := HexText.forall_lower (by decide)
  rw [jsonString_hex]
  exact .cons (by decide) (Ascii.append (fun c hc => hd c (h.chars_lower c hc)) (.of_all (by decide)))

theorem peerId_ascii (p : PeerId) : Ascii p.value.repr.toList := by
  obtain ⟨n, hn⟩ := Int.eq_ofNat_of_zero_le (show 0 ≤ p.value from by have := p.range; omega)
  intro c hc
  rw [hn, show Int.repr (n : Int) = n.repr from rfl, Nat.toList_repr] at hc
  have hd := Nat.isDigit_of_mem_toDigits (by decide) (by decide) hc
  simp only [Char.isDigit, Bool.and_eq_true, decide_eq_true_eq] at hd
  have h2 : c.val.toNat ≤ 57 := UInt32.le_iff_toNat_le.mp hd.2
  change c.val.toNat < 128
  omega

theorem jsonMember_ascii {key : String} {value : List Char} (hk : Ascii (jsonString key))
    (hv : Ascii value) : Ascii (jsonMember key value) :=
  hk.append (.cons (by decide) hv)

theorem binding_text_ascii (b : Binding) : Ascii (jsonText (.obj b.toDict)) := by
  rw [jsonText, binding_members]
  refine .cons (by decide) (Ascii.append (commaJoin_ascii ?_) (.of_all (by decide)))
  simp only [List.forall_mem_cons]
  have hk : ∀ key ∈ ["admission_id", "attestor", "connection_id", "controller", "game_session_id",
      "instance_id", "peer_id"], Ascii (jsonString key) := by
    intro key hkey
    apply Ascii.of_all
    revert key
    decide
  exact ⟨jsonMember_ascii (hk _ (by simp)) b.admission_id.ascii,
    jsonMember_ascii (hk _ (by simp)) b.attestor.ascii,
    jsonMember_ascii (hk _ (by simp)) b.connection_id.ascii,
    jsonMember_ascii (hk _ (by simp)) b.controller.ascii,
    jsonMember_ascii (hk _ (by simp)) b.game_session_id.ascii,
    jsonMember_ascii (hk _ (by simp)) b.instance_id.ascii,
    jsonMember_ascii (hk _ (by simp)) (peerId_ascii b.peer_id), by simp⟩

theorem boundPreimage_eq {b : Binding} {salt : HexStr 64} {data : List UInt8}
    (h : boundPreimage b salt.text = some data) :
    ∃ protocol payload bs, encodeAscii admissionProtocol.toList = some protocol ∧
      encodeAscii (jsonText (.obj b.toDict)) = some payload ∧
      HexText.toHex bs = salt.text.toList ∧ bs.length = 32 ∧
      data = protocol ++ [0] ++ payload ++ [0] ++ bs := by
  obtain ⟨bs, hb, ht, hl⟩ := HexStr.bytes (n := 32) salt
  simp only [boundPreimage, hexValue_text, Option.bind_eq_bind, Option.bind_eq_some_iff,
    Except.toOption, Option.some.injEq] at h
  obtain ⟨payload, hp, protocol, hq, s, rfl, bs', hs, rfl⟩ := h
  rw [hb] at hs
  obtain rfl := Option.some.inj hs
  exact ⟨protocol, payload, bs, hq, hp, ht, hl, rfl⟩

theorem boundNonce_isSome (host : Host) (b : Binding) (salt : HexStr 64) :
    ∃ data, boundPreimage b salt.text = some data ∧
      boundNonce host b salt.text = some (hexdigest (host.sha256 data)) := by
  obtain ⟨payload, hp⟩ := Option.isSome_iff_exists.mp (binding_text_ascii b).encode
  obtain ⟨protocol, hq⟩ := Option.isSome_iff_exists.mp
    (show (encodeAscii admissionProtocol.toList).isSome by decide)
  obtain ⟨bs, hb, _⟩ := HexStr.bytes (n := 32) salt
  have he : boundPreimage b salt.text = some (protocol ++ [0] ++ payload ++ [0] ++ bs) := by
    simp [boundPreimage, hp, hq, hexValue_text, Except.toOption, hb]
  exact ⟨_, he, by rw [boundNonce, he, Option.map_some]⟩

/-- The salt is cut off by its width and the NUL by its place, so what is left
is the canonical text. -/
theorem boundPreimage_inj {a b : Binding} {s t : HexStr 64} {data : List UInt8}
    (ha : boundPreimage a s.text = some data) (hb : boundPreimage b t.text = some data) :
    a = b ∧ s = t := by
  obtain ⟨p, x, us, hp, hx, hus, hul, he⟩ := boundPreimage_eq ha
  obtain ⟨q, y, vs, hq, hy, hvs, hvl, he'⟩ := boundPreimage_eq hb
  obtain rfl := Option.some.inj (hp.symm.trans hq)
  obtain ⟨hleft, hright⟩ := List.append_inj' (he.symm.trans he') (by rw [hul, hvl])
  have hxy := List.append_cancel_left (List.append_cancel_right hleft)
  rw [hxy] at hx
  exact ⟨binding_text_inj (encodeAscii_inj hx hy), HexStr.eq_of_bytes (n := 32) hus hvs hright⟩

theorem hexdigest_inj {a b : Vector UInt8 32} (h : hexdigest a = hexdigest b) : a = b := by
  have ht := congrArg (fun x => x.text.toList) h
  simp only [hexdigest, String.toList_ofList] at ht
  exact Vector.toList_inj.mp (HexText.toHex_inj ht)

theorem packUint64_eq {n : Int} {bs : List UInt8} (h : packUint64 n = some bs) :
    0 ≤ n ∧ n < 2 ^ 64 ∧ bs = HexText.bigEndian 8 n.toNat := by
  simp only [packUint64] at h
  split at h
  · rename_i hn
    exact ⟨hn.1, hn.2, (Option.some.inj h).symm⟩
  · cases h

theorem packUint64_length {n : Int} {bs : List UInt8} (h : packUint64 n = some bs) :
    bs.length = 8 := by
  rw [(packUint64_eq h).2.2, HexText.bigEndian_length]

theorem packUint64_inj {m n : Int} {bs : List UInt8} (hm : packUint64 m = some bs)
    (hn : packUint64 n = some bs) : m = n := by
  obtain ⟨h1, h2, h3⟩ := packUint64_eq hm
  obtain ⟨h4, h5, h6⟩ := packUint64_eq hn
  have he := HexText.bigEndian_inj (by omega) (by omega) (h3.symm.trans h6)
  omega

theorem qualificationPreimage_inj {host : Host} {c d : Challenge} {data : List UInt8}
    (hc : qualificationPreimage host c = some data)
    (hd : qualificationPreimage host d = some data) :
    c.session_id = d.session_id ∧ c.nonce = d.nonce ∧ c.created_at = d.created_at ∧
      c.expires_at = d.expires_at ∧ policyDigest host c = policyDigest host d ∧
      c.ak_sha256 = d.ak_sha256 := by
  obtain ⟨sc, hsc, tsc, lsc⟩ := HexStr.bytes (n := 16) c.session_id
  obtain ⟨sd, hsd, tsd, lsd⟩ := HexStr.bytes (n := 16) d.session_id
  obtain ⟨nc, hnc, tnc, lnc⟩ := HexStr.bytes (n := 32) c.nonce
  obtain ⟨nd, hnd, tnd, lnd⟩ := HexStr.bytes (n := 32) d.nonce
  obtain ⟨kc, hkc, tkc, lkc⟩ := HexStr.bytes (n := 32) c.ak_sha256
  obtain ⟨kd, hkd, tkd, lkd⟩ := HexStr.bytes (n := 32) d.ak_sha256
  simp only [qualificationPreimage, hsc, hnc, hkc, Option.bind_eq_bind, Option.bind_some,
    Option.bind_eq_some_iff, Option.some.injEq] at hc
  simp only [qualificationPreimage, hsd, hnd, hkd, Option.bind_eq_bind, Option.bind_some,
    Option.bind_eq_some_iff, Option.some.injEq] at hd
  obtain ⟨uc, huc, ec, hec, pc, hpc, qc, hqc, he⟩ := hc
  obtain ⟨ud, hud, ed, hed, pd, hpd, qd, hqd, he'⟩ := hd
  obtain rfl := Option.some.inj (hqc.symm.trans hqd)
  obtain ⟨he, hk⟩ := List.append_inj' (he.trans he'.symm) (by rw [lkc, lkd])
  obtain ⟨he, hp⟩ := List.append_inj' he (by simp)
  obtain ⟨he, ht⟩ := List.append_inj' he (by
    simp only [List.length_append, packUint64_length huc, packUint64_length hec,
      packUint64_length hud, packUint64_length hed])
  obtain ⟨hu, hx⟩ := List.append_inj ht (by rw [packUint64_length huc, packUint64_length hud])
  obtain ⟨he, hn⟩ := List.append_inj' he (by rw [lnc, lnd])
  have hs := List.append_cancel_left he
  exact ⟨HexStr.eq_of_bytes (n := 16) tsc tsd hs, HexStr.eq_of_bytes (n := 32) tnc tnd hn,
    packUint64_inj huc (hu ▸ hud), packUint64_inj hec (hx ▸ hed),
    by rw [hpc, hpd, Vector.toList_inj.mp hp], HexStr.eq_of_bytes (n := 32) tkc tkd hk⟩

end ArenaLab
