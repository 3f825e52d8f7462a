import LedgerQuery.Proofs.Json.Text

/-! What is written of a value is a text of it. -/

namespace LedgerQuery

namespace Utf8

lemma encode_append (cs ds : List Char) : encode (cs ++ ds) = encode cs ++ encode ds :=
  List.flatMap_append

lemma ofString_append (s t : String) : ofString (s ++ t) = ofString s ++ ofString t := by
  rw [ofString, String.toList_append, encode_append, ofString, ofString]

end Utf8

namespace Json

mutual

def Proper : Json → Prop
  | .num (.natural n) => n ≤ Word.max
  | .num (.negative n) => 0 < n ∧ n ≤ 2 ^ 63
  | .num (.float _) => False
  | .arr items => ProperItems items
  | .obj members => (members.map (·.1)).Pairwise (· < ·) ∧ ProperMembers members
  | _ => True

def ProperItems : List Json → Prop
  | [] => True
  | j :: rest => Proper j ∧ ProperItems rest

def ProperMembers : List (String × Json) → Prop
  | [] => True
  | (_, j) :: rest => Proper j ∧ ProperMembers rest

end

section Strings

variable {c : Char} {cs : List Char} {w rest : List UInt8}

lemma encode_hexDigit {n : ℕ} (h : n < 16) :
    ∃ b, Utf8.encodeChar n.digitChar = [b] ∧ Scan.hexValue b = some n := by
  interval_cases n <;> exact ⟨_, rfl, rfl⟩

lemma chars_escapeChar (h : Chars cs w rest) :
    Chars (c :: cs) (Utf8.encode (escapeChar c) ++ w) rest := by
  have hletter (n : ℕ) (b : UInt8) (d : Char) (hc : c.toNat = n) (hd : d.toNat = n)
      (hb : (b, d) ∈ escapes) : Chars (c :: cs) (0x5c :: b :: w) rest := by
    obtain rfl : c = d := Char.toNat_inj.mp (hc.trans hd.symm)
    exact .escape (.letter hb) h
  unfold escapeChar
  split
  · next hc => exact hletter _ 0x22 '\"' hc rfl (by decide)
  · next hc => exact hletter _ 0x5c '\\' hc rfl (by decide)
  · next hc => exact hletter _ 0x62 '\x08' hc rfl (by decide)
  · next hc => exact hletter _ 0x74 '\t' hc rfl (by decide)
  · next hc => exact hletter _ 0x6e '\n' hc rfl (by decide)
  · next hc => exact hletter _ 0x66 '\x0c' hc rfl (by decide)
  · next hc => exact hletter _ 0x72 '\r' hc rfl (by decide)
  · next hquote hslash _ _ _ _ _ =>
    split_ifs with hcontrol
    · obtain ⟨a, ha, hva⟩ := encode_hexDigit (n := c.toNat / 16) (by omega)
      obtain ⟨b, hb, hvb⟩ := encode_hexDigit (n := c.toNat % 16) (by omega)
      have hhex : HexFour c.toNat [0x30, 0x30, a, b] :=
        ⟨0, 0, c.toNat / 16, c.toNat % 16, rfl, rfl, hva, hvb, by omega⟩
      have hbytes : Utf8.encode ['\\', 'u', '0', '0', (c.toNat / 16).digitChar,
          (c.toNat % 16).digitChar] = [0x5c, 0x75, 0x30, 0x30, a, b] := by
        rw [Utf8.encode, List.flatMap_cons, List.flatMap_cons, List.flatMap_cons,
          List.flatMap_cons, List.flatMap_cons, List.flatMap_singleton, ha, hb]
        rfl
      rw [hbytes]
      exact .escape (.point hhex) h
    · have hchars : Chars (c :: cs) (Utf8.encodeChar c ++ w) rest := by
        refine .plain (by omega) ?_ ?_ h
        · rintro rfl
          exact hquote rfl
        · rintro rfl
          exact hslash rfl
      simpa [Utf8.encode] using hchars

lemma chars_flatMap (cs : List Char) (rest : List UInt8) :
    Chars cs (Utf8.encode (cs.flatMap escapeChar) ++ 0x22 :: rest) rest := by
  induction cs with
  | nil => exact .close
  | cons c cs ih =>
    rw [List.flatMap_cons, Utf8.encode_append, List.append_assoc]
    exact chars_escapeChar ih

lemma quoted_writeString (s : String) (rest : List UInt8) :
    Quoted s (Utf8.ofString (writeString s) ++ rest) rest := by
  have hchars := Quoted.mk (chars_flatMap s.toList rest)
  have hquote : Utf8.ofString "\"" = [0x22] := by decide
  rw [String.ofList_toList] at hchars
  rw [writeString, Utf8.ofString_append, Utf8.ofString_append, hquote, Utf8.ofString,
    String.toList_ofList]
  simpa using hchars

end Strings

section Joined

def commaed (texts : List String) : List UInt8 :=
  texts.flatMap fun text => 0x2c :: Utf8.ofString text

lemma encode_intercalate (text : List Char) (texts : List (List Char)) :
    Utf8.encode (List.intercalate [','] (text :: texts)) =
      Utf8.encode text ++ texts.flatMap fun text => 0x2c :: Utf8.encode text := by
  induction texts generalizing text with
  | nil => simp
  | cons next texts ih =>
    rw [List.intercalate_cons_cons, Utf8.encode_append, Utf8.encode_append, ih, List.flatMap_cons,
      List.append_assoc]
    rfl

lemma ofString_intercalate (text : String) (texts : List String) :
    Utf8.ofString (String.intercalate "," (text :: texts)) =
      Utf8.ofString text ++ commaed texts := by
  rw [Utf8.ofString, String.toList_intercalate, List.map_cons]
  refine (encode_intercalate _ _).trans ?_
  rw [List.flatMap_map]
  rfl

lemma insert_last {key : String} {j : Json} {members : List (String × Json)}
    (h : ∀ k ∈ members.map (·.1), k < key) : insert key j members = members ++ [(key, j)] := by
  induction members with
  | nil => rfl
  | cons m members ih =>
    obtain ⟨k, v⟩ := m
    rw [List.map_cons, List.forall_mem_cons] at h
    have hlt : ¬ key < k := String.lt_asymm h.1
    have hne : ¬ key = k := (String.ne_of_lt h.1).symm
    rw [insert, if_neg hlt, if_neg hne, ih h.2, List.cons_append]

lemma ofMembers_sorted {members : List (String × Json)}
    (h : (members.map (·.1)).Pairwise (· < ·)) : ofMembers members = .obj members := by
  have hfold (before : List (String × Json)) :
      ((before ++ members).map (·.1)).Pairwise (· < ·) →
      members.foldl (fun acc m => insert m.1 m.2 acc) before = before ++ members := by
    clear h
    induction members generalizing before with
    | nil => simp
    | cons m members ih =>
      intro h
      have hbefore : ∀ k ∈ before.map (·.1), k < m.1 := by
        rw [List.map_append, List.pairwise_append] at h
        exact fun k hk => h.2.2 k hk m.1 (by simp)
      rw [List.foldl_cons, insert_last hbefore, ih]
      · simp
      · simpa using h
  exact congrArg Json.obj (hfold [] h)

end Joined

lemma Scalar.text {j : Json} {w rest : List UInt8} (h : Scalar j w rest) : Text j w rest :=
  .scalar (h.past.symm ▸ h)

section Brackets

variable {text : String} {texts : List String} {rest : List UInt8}

lemma ofString_list : Utf8.ofString ("[" ++ String.intercalate "," (text :: texts) ++ "]") ++ rest =
    0x5b :: (Utf8.ofString text ++ (commaed texts ++ 0x5d :: rest)) := by
  have hopen : Utf8.ofString "[" = [0x5b] := by decide
  have hclose : Utf8.ofString "]" = [0x5d] := by decide
  rw [Utf8.ofString_append, Utf8.ofString_append, hopen, hclose, ofString_intercalate]
  simp

lemma ofString_object :
    Utf8.ofString ("\x7b" ++ String.intercalate "," (text :: texts) ++ "\x7d") ++ rest =
      0x7b :: (Utf8.ofString text ++ (commaed texts ++ 0x7d :: rest)) := by
  have hopen : Utf8.ofString "\x7b" = [0x7b] := by decide
  have hclose : Utf8.ofString "\x7d" = [0x7d] := by decide
  rw [Utf8.ofString_append, Utf8.ofString_append, hopen, hclose, ofString_intercalate]
  simp

lemma ofString_member (key : String) : Utf8.ofString (writeString key ++ ":" ++ text) ++ rest =
    Utf8.ofString (writeString key) ++ 0x3a :: (Utf8.ofString text ++ rest) := by
  have hcolon : Utf8.ofString ":" = [0x3a] := by decide
  rw [Utf8.ofString_append, Utf8.ofString_append, hcolon]
  simp

lemma commaed_cons : commaed (text :: texts) ++ rest =
    0x2c :: (Utf8.ofString text ++ (commaed texts ++ rest)) := by
  simp [commaed]

end Brackets

lemma Members.written {first : Bool} {key : String} {j : Json} {members : List (String × Json)}
    {w value more rest : List UInt8}
    (hsep : Separates first w (Utf8.ofString (writeString key) ++ 0x3a :: value))
    (hv : Text j value more) (hm : Members false members more rest) :
    Members first ((key, j) :: members) w rest := by
  have hquoted := quoted_writeString key (0x3a :: value)
  have hname : Quoted key (past (Utf8.ofString (writeString key) ++ 0x3a :: value))
      (0x3a :: value) := by
    rw [hquoted.past]
    exact hquoted
  exact .member hsep hname (past_of_head rfl) hv hm

lemma text_emptyList (rest : List UInt8) :
    Text (.arr []) (Utf8.ofString (write (.arr [])) ++ rest) rest := by
  have hbytes : Utf8.ofString (write (.arr [])) = [0x5b, 0x5d] := by decide
  rw [hbytes]
  exact .arr (past_of_head rfl) (.close (past_of_head rfl))

lemma text_emptyObject (rest : List UInt8) :
    Text (.obj []) (Utf8.ofString (write (.obj [])) ++ rest) rest := by
  have hbytes : Utf8.ofString (write (.obj [])) = [0x7b, 0x7d] := by decide
  rw [hbytes]
  exact .obj (past_of_head rfl) (.close (past_of_head rfl)) List.nodup_nil

mutual

theorem text_write (rest : List UInt8) : (j : Json) → Proper j →
    Text j (Utf8.ofString j.write ++ rest) rest
  | .null, _ => Scalar.null.text
  | .bool true, _ => Scalar.yes.text
  | .bool false, _ => Scalar.no.text
  | .num (.natural n), h => (Scalar.natural h).text
  | .num (.negative n), h => by
    have hsign : Utf8.ofString ("-" ++ toString n) = 0x2d :: numeral n := by
      rw [Utf8.ofString_append]
      rfl
    rw [write, Number.text, hsign]
    exact (Scalar.negative h.1 h.2).text
  | .num (.float x), h => h.elim
  | .str s, _ => (Scalar.str (quoted_writeString s rest)).text
  | .arr [], _ => text_emptyList rest
  | .arr (j :: items), h => by
    have hfirst := text_write (commaed (writeItems items) ++ 0x5d :: rest) j h.1
    have hlater := items_write rest items h.2
    rw [write, writeItems, ofString_list]
    exact .arr (past_of_head rfl) (.item rfl hfirst hlater)
  | .obj [], _ => text_emptyObject rest
  | .obj ((key, j) :: members), h => by
    have hfirst := text_write (commaed (writeMembers members) ++ 0x7d :: rest) j h.2.1
    have hlater := members_write rest members h.2.2
    have hopen (w : List UInt8) : Separates true w w := rfl
    have hnodup : (((key, j) :: members).map (·.1)).Nodup :=
      h.1.imp fun hlt => String.ne_of_lt hlt
    rw [write, writeMembers, ofString_object, ofString_member, ← ofMembers_sorted h.1]
    exact .obj (past_of_head rfl) (.written (hopen _) hfirst hlater) hnodup

theorem items_write (rest : List UInt8) : (items : List Json) → ProperItems items →
    Items false items (commaed (writeItems items) ++ 0x5d :: rest) rest
  | [], _ => .close rfl
  | j :: items, h => by
    have hfirst := text_write (commaed (writeItems items) ++ 0x5d :: rest) j h.1
    have hlater := items_write rest items h.2
    rw [writeItems, commaed_cons]
    exact .item (past_of_head rfl) hfirst hlater

theorem members_write (rest : List UInt8) : (members : List (String × Json)) →
    ProperMembers members →
    Members false members (commaed (writeMembers members) ++ 0x7d :: rest) rest
  | [], _ => .close rfl
  | (key, j) :: members, h => by
    have hfirst := text_write (commaed (writeMembers members) ++ 0x7d :: rest) j h.1
    have hlater := members_write rest members h.2
    rw [writeMembers, commaed_cons, ofString_member]
    exact .written (past_of_head rfl) hfirst hlater

end

lemma document_write {j : Json} (h : Proper j) : Document j (Utf8.ofString j.write) := by
  have htext := text_write [] j h
  rw [List.append_nil] at htext
  exact ⟨[], htext, rfl⟩

end Json

end LedgerQuery
