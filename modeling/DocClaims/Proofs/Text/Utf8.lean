import DocClaims.Text.Utf8

/-!
# Encoded texts are well-formed

The bytes of a text fall into its characters, so reading them gives the text back.
-/

namespace DocClaims
namespace Text

/-! ### Pieces -/

theorem isContinuation_iff {b : UInt8} :
    isContinuation b ↔ 0x80 ≤ b.toNat ∧ b.toNat ≤ 0xBF := by
  simp [isContinuation, UInt8.le_iff_toNat_le]

theorem isSecond_of_isContinuation {lead b : UInt8} (hb : isContinuation b)
    (hthree : lead = 0xE0 → 0xA0 ≤ b.toNat) (hsurrogate : lead = 0xED → b.toNat ≤ 0x9F)
    (hfour : lead = 0xF0 → 0x90 ≤ b.toNat) (hlast : lead = 0xF4 → b.toNat ≤ 0x8F) :
    isSecond lead b := by
  have hrange := isContinuation_iff.1 hb
  unfold isSecond
  split
  · next h => simpa [UInt8.le_iff_toNat_le, hrange] using hthree (beq_iff_eq.1 h)
  · split
    · next h => simpa [UInt8.le_iff_toNat_le, hrange] using hsurrogate (beq_iff_eq.1 h)
    · split
      · next h => simpa [UInt8.le_iff_toNat_le, hrange] using hfour (beq_iff_eq.1 h)
      · split
        · next h => simpa [UInt8.le_iff_toNat_le, hrange] using hlast (beq_iff_eq.1 h)
        · exact hb

variable {lead b c d : UInt8} {rest : Bytes}

theorem piece_one (h : lead.toNat < 0x80) :
    piece lead rest = ⟨some (Char.ofNat lead.toNat), 1⟩ := by
  rw [piece, if_pos (by simpa [UInt8.lt_iff_toNat_lt] using h)]

theorem piece_two (hlow : 0xC2 ≤ lead.toNat) (hhigh : lead.toNat ≤ 0xDF) (hb : isContinuation b) :
    piece lead (b :: rest) =
      ⟨some (Char.ofNat (lead.toNat % 32 * 64 + low6 b)), 2⟩ := by
  simp only [piece, UInt8.lt_iff_toNat_lt, UInt8.le_iff_toNat_le, Bool.and_eq_true,
    decide_eq_true_eq]
  rw [if_neg (by simp; omega), if_pos (by simp; omega), twoByte, if_pos hb]

theorem piece_three (hlow : 0xE0 ≤ lead.toNat) (hhigh : lead.toNat ≤ 0xEF)
    (hb : isSecond lead b) (hc : isContinuation c) :
    piece lead (b :: c :: rest) =
      ⟨some (Char.ofNat (lead.toNat % 16 * 4096 + low6 b * 64 + low6 c)), 3⟩ := by
  simp only [piece, UInt8.lt_iff_toNat_lt, UInt8.le_iff_toNat_le, Bool.and_eq_true,
    decide_eq_true_eq]
  rw [if_neg (by simp; omega), if_neg (by simp; omega), if_pos (by simp; omega)]
  simp [threeByte, hb, hc]

theorem piece_four (hlow : 0xF0 ≤ lead.toNat) (hhigh : lead.toNat ≤ 0xF4)
    (hb : isSecond lead b) (hc : isContinuation c) (hd : isContinuation d) :
    piece lead (b :: c :: d :: rest) =
      ⟨some (Char.ofNat
        (lead.toNat % 8 * 262144 + low6 b * 4096 + low6 c * 64 + low6 d)), 4⟩ := by
  simp only [piece, UInt8.lt_iff_toNat_lt, UInt8.le_iff_toNat_le, Bool.and_eq_true,
    decide_eq_true_eq]
  rw [if_neg (by simp; omega), if_neg (by simp; omega), if_neg (by simp; omega),
    if_pos (by simp; omega)]
  simp [fourByte, hb, hc, hd]

/-! ### Characters -/

theorem toNat_continuation (n : Nat) :
    (UInt8.ofNat (n % 0x40 + 0x80)).toNat = n % 0x40 + 0x80 := by
  rw [UInt8.toNat_ofNat']
  omega

theorem isContinuation_ofNat (n : Nat) : isContinuation (UInt8.ofNat (n % 0x40 + 0x80)) := by
  rw [isContinuation_iff, toNat_continuation]
  omega

theorem low6_ofNat (n : Nat) : low6 (UInt8.ofNat (n % 0x40 + 0x80)) = n % 0x40 := by
  rw [low6, toNat_continuation]
  omega

theorem piece_utf8EncodeChar (a : Char) (rest : Bytes) :
    ∃ lead tail, String.utf8EncodeChar a = lead :: tail ∧
      piece lead (tail ++ rest) = ⟨some a, tail.length + 1⟩ := by
  have hrange : a.val.toNat < 0xD800 ∨ 0xDFFF < a.val.toNat ∧ a.val.toNat < 0x110000 := a.valid
  have hvalue : ∀ n, n = a.val.toNat → Char.ofNat n = a := by
    rintro n rfl
    exact Char.ofNat_toNat a
  unfold String.utf8EncodeChar
  generalize a.val.toNat = v at hrange hvalue
  dsimp only
  split
  · have hlead : (UInt8.ofNat v).toNat = v := by
      rw [UInt8.toNat_ofNat']
      omega
    refine ⟨_, _, rfl, ?_⟩
    rw [List.nil_append, piece_one (by omega), hlead, hvalue v rfl]
    rfl
  · split
    · have hlead : (UInt8.ofNat (v / 64 % 0x20 + 0xC0)).toNat = v / 64 % 0x20 + 0xC0 := by
        rw [UInt8.toNat_ofNat']
        omega
      refine ⟨_, _, rfl, ?_⟩
      rw [List.singleton_append, piece_two (by omega) (by omega) (isContinuation_ofNat _),
        low6_ofNat, hlead, hvalue _ (by omega)]
      rfl
    · split
      · have hlead : (UInt8.ofNat (v / 4096 % 0x10 + 0xE0)).toNat = v / 4096 % 0x10 + 0xE0 := by
          rw [UInt8.toNat_ofNat']
          omega
        refine ⟨_, _, rfl, ?_⟩
        rw [List.cons_append, List.singleton_append, piece_three (by omega) (by omega) ?_
          (isContinuation_ofNat _), low6_ofNat, low6_ofNat, hlead, hvalue _ (by omega)]
        · rfl
        · refine isSecond_of_isContinuation (isContinuation_ofNat _) ?_ ?_ ?_ ?_
          all_goals
            rw [← UInt8.toNat_inj, hlead, toNat_continuation]
            simp only [UInt8.reduceToNat]
            omega
      · have hlead : (UInt8.ofNat (v / 262144 % 0x08 + 0xF0)).toNat = v / 262144 % 0x08 + 0xF0 := by
          rw [UInt8.toNat_ofNat']
          omega
        refine ⟨_, _, rfl, ?_⟩
        rw [List.cons_append, List.cons_append, List.singleton_append,
          piece_four (by omega) (by omega) ?_ (isContinuation_ofNat _) (isContinuation_ofNat _),
          low6_ofNat, low6_ofNat, low6_ofNat, hlead, hvalue _ (by omega)]
        · rfl
        · refine isSecond_of_isContinuation (isContinuation_ofNat _) ?_ ?_ ?_ ?_
          all_goals
            rw [← UInt8.toNat_inj, hlead, toNat_continuation]
            simp only [UInt8.reduceToNat]
            omega

theorem utf8EncodeChar_ascii {a : Char} (ha : a.toNat < 0x80) :
    String.utf8EncodeChar a = [UInt8.ofNat a.toNat] := by
  unfold String.utf8EncodeChar
  exact if_pos (by change a.toNat ≤ 0x7F; omega)

theorem le_of_mem_utf8EncodeChar {a : Char} (ha : 0x80 ≤ a.toNat) :
    ∀ b ∈ String.utf8EncodeChar a, 0x80 ≤ b.toNat := by
  have hsize : ∀ n < 0x100, 0x80 ≤ n → 0x80 ≤ (UInt8.ofNat n).toNat := by
    intro n hn hle
    rw [UInt8.toNat_ofNat']
    omega
  change 0x80 ≤ a.val.toNat at ha
  unfold String.utf8EncodeChar
  generalize a.val.toNat = v at ha
  dsimp only
  split
  · omega
  · split
    · simp only [List.forall_mem_cons, List.not_mem_nil, false_implies, implies_true, and_true]
      exact ⟨hsize _ (by omega) (by omega), hsize _ (by omega) (by omega)⟩
    · split
      · simp only [List.forall_mem_cons, List.not_mem_nil, false_implies, implies_true, and_true]
        exact ⟨hsize _ (by omega) (by omega), hsize _ (by omega) (by omega),
          hsize _ (by omega) (by omega)⟩
      · simp only [List.forall_mem_cons, List.not_mem_nil, false_implies, implies_true, and_true]
        exact ⟨hsize _ (by omega) (by omega), hsize _ (by omega) (by omega),
          hsize _ (by omega) (by omega), hsize _ (by omega) (by omega)⟩

/-! ### Texts -/

theorem encode_append (s t : String) : encode (s ++ t) = encode s ++ encode t := by
  rw [encode, String.toList_append, List.flatMap_append]
  rfl

@[simp] theorem encode_empty : encode "" = [] := rfl

/-- The bytes of a piece that was read before are passed over. -/
theorem piecesFrom_drop (read : List (Option Char)) (skip : Nat) (bytes : Bytes) :
    piecesFrom read skip bytes = piecesFrom read 0 (bytes.drop skip) := by
  induction bytes generalizing skip with
  | nil => rw [List.drop_nil, piecesFrom, piecesFrom]
  | cons b rest ih =>
      cases skip with
      | zero => rfl
      | succ skip => rw [piecesFrom, ih, List.drop_succ_cons]

theorem piecesFrom_cons (read : List (Option Char)) (lead : UInt8) (rest : Bytes) :
    piecesFrom read 0 (lead :: rest) =
      piecesFrom ((piece lead rest).char? :: read) 0 (rest.drop ((piece lead rest).size - 1)) := by
  rw [piecesFrom, piecesFrom_drop]

theorem piecesFrom_utf8EncodeChar (a : Char) (read : List (Option Char)) (rest : Bytes) :
    piecesFrom read 0 (String.utf8EncodeChar a ++ rest) = piecesFrom (some a :: read) 0 rest := by
  obtain ⟨lead, tail, hbytes, hpiece⟩ := piece_utf8EncodeChar a rest
  rw [hbytes, List.cons_append, piecesFrom_cons, hpiece]
  simp

/-- What was read before comes first. -/
theorem piecesFrom_eq_append (read : List (Option Char)) (skip : Nat) (bytes : Bytes) :
    piecesFrom read skip bytes = read.reverse ++ piecesFrom [] skip bytes := by
  induction bytes generalizing read skip with
  | nil => simp [piecesFrom]
  | cons b rest ih =>
      cases skip with
      | succ skip => exact ih read skip
      | zero =>
          rw [piecesFrom, piecesFrom, ih, ih [_]]
          simp

theorem pieces_utf8EncodeChar_append (a : Char) (rest : Bytes) :
    pieces (String.utf8EncodeChar a ++ rest) = some a :: pieces rest := by
  rw [pieces, piecesFrom_utf8EncodeChar, piecesFrom_eq_append]
  rfl

theorem pieces_flatMap_append (cs : List Char) (rest : Bytes) :
    pieces (cs.flatMap String.utf8EncodeChar ++ rest) = cs.map some ++ pieces rest := by
  induction cs with
  | nil => rfl
  | cons a cs ih =>
      rw [List.flatMap_cons, List.append_assoc, pieces_utf8EncodeChar_append, ih]
      rfl

theorem pieces_encode (s : String) : pieces (encode s) = s.toList.map some := by
  have hpieces := pieces_flatMap_append s.toList []
  have hnil : pieces [] = [] := rfl
  rwa [List.append_nil, hnil, List.append_nil] at hpieces

/-- Reading the bytes of a text gives its characters. -/
theorem decode?_encode (s : String) : decode? (encode s) = some s.toList := by
  rw [decode?, pieces_encode]
  induction s.toList with
  | nil => rfl
  | cons a cs ih =>
      rw [List.map_cons, List.mapM_cons, ih]
      rfl

@[simp] theorem lossy_encode (s : String) : lossy (encode s) = s := by
  rw [lossy, decodeLossy, pieces_encode]
  simp [Function.comp_def]

theorem encode_eq_nil {s : String} : encode s = [] ↔ s = "" := by
  constructor
  · intro h
    rw [← lossy_encode s, h]
    rfl
  · rintro rfl
    rfl

theorem encode_injective : Function.Injective encode :=
  Function.LeftInverse.injective lossy_encode

@[simp] theorem encode_inj {s t : String} : encode s = encode t ↔ s = t :=
  encode_injective.eq_iff

/-! ### ASCII among other bytes -/

theorem pieces_cons (lead : UInt8) (rest : Bytes) :
    pieces (lead :: rest) =
      (piece lead rest).char? :: pieces (rest.drop ((piece lead rest).size - 1)) := by
  rw [pieces, piecesFrom_cons, piecesFrom_eq_append]
  rfl

theorem isContinuation_eq_false (h : b.toNat < 0x80) : isContinuation b = false := by
  rw [← Bool.not_eq_true, isContinuation_iff]
  omega

theorem isSecond_eq_false (lead : UInt8) (h : b.toNat < 0x80) : isSecond lead b = false := by
  have hlow : ∀ low : UInt8, 0x80 ≤ low.toNat → decide (low ≤ b) = false := by
    intro low hlow
    simp only [UInt8.le_iff_toNat_le, decide_eq_false_iff_not]
    omega
  unfold isSecond
  simp [hlow, isContinuation_eq_false h]

/-- An ASCII byte that comes behind does not belong to a piece. -/
theorem piece_append_cons (lead : UInt8) (rest : Bytes) (h : b.toNat < 0x80) (behind : Bytes) :
    piece lead (rest ++ b :: behind) = piece lead rest := by
  have hcontinuation := isContinuation_eq_false h
  have hsecond := isSecond_eq_false lead h
  unfold piece twoByte threeByte fourByte
  match rest with
  | [] => simp [hcontinuation, hsecond]
  | [x] => simp [hcontinuation]
  | [x, y] => simp [hcontinuation]
  | x :: y :: z :: rest => rfl

theorem size_piece_le (lead : UInt8) (rest : Bytes) : (piece lead rest).size - 1 ≤ rest.length := by
  unfold piece twoByte threeByte fourByte
  match rest with
  | [] => grind
  | [x] => grind
  | [x, y] => grind
  | x :: y :: z :: rest => grind

/-- An ASCII byte is a piece of its own, whatever the bytes around it are. -/
theorem pieces_append_cons (front : Bytes) (h : b.toNat < 0x80) (behind : Bytes) :
    pieces (front ++ b :: behind) =
      pieces front ++ some (Char.ofNat b.toNat) :: pieces behind := by
  induction hn : front.length using Nat.strongRecOn generalizing front with
  | ind n ih =>
      cases front with
      | nil =>
          rw [List.nil_append, pieces_cons, piece_one h]
          rfl
      | cons lead rest =>
          have hle := size_piece_le lead rest
          rw [List.cons_append, pieces_cons, piece_append_cons lead rest h, pieces_cons,
            List.drop_append_of_le_length hle, ih _ _ _ rfl, List.cons_append]
          rw [← hn, List.length_cons, List.length_drop]
          omega

theorem lossy_append_cons (front : Bytes) (h : b.toNat < 0x80) (behind : Bytes) :
    (lossy (front ++ b :: behind)).toList =
      (lossy front).toList ++ Char.ofNat b.toNat :: (lossy behind).toList := by
  simp [lossy, decodeLossy, pieces_append_cons front h]

/-! ### Bytes that are no ASCII -/

theorem toNat_charOfNat {n : Nat} (h : n.isValidChar) : (Char.ofNat n).toNat = n := by
  rw [Char.ofNat, dif_pos h]
  rfl

/-- The character that a piece shows is no ASCII. -/
def Piece.IsBeyond (p : Piece) : Prop := 0x80 ≤ (p.char?.getD replacement).toNat

theorem isBeyond_none (size : Nat) : Piece.IsBeyond ⟨none, size⟩ := by
  change 0x80 ≤ replacement.toNat
  decide

theorem isBeyond_some {n size : Nat} (hle : 0x80 ≤ n) (h : n.isValidChar) :
    Piece.IsBeyond ⟨some (Char.ofNat n), size⟩ := by
  rw [Piece.IsBeyond, Option.getD_some, toNat_charOfNat h]
  exact hle

theorem low6_lt (b : UInt8) : low6 b < 64 := Nat.mod_lt _ (by decide)

/-- Second bytes are bounded so that characters have one encoding and are none of the surrogates. -/
theorem low6_of_isSecond (h : isSecond lead b) :
    (lead.toNat = 0xE0 → 32 ≤ low6 b) ∧ (lead.toNat = 0xED → low6 b < 32) ∧
      (lead.toNat = 0xF0 → 16 ≤ low6 b) ∧ (lead.toNat = 0xF4 → low6 b < 16) := by
  have hbounds {n : Nat} {lead' : UInt8} (hlead' : lead'.toNat = n) (hlead : lead.toNat = n) :
      isSecond lead' b := by
    rwa [UInt8.toNat_inj.1 (hlead'.trans hlead.symm)]
  refine ⟨fun hlead => ?_, fun hlead => ?_, fun hlead => ?_, fun hlead => ?_⟩
  · have hb := hbounds (show UInt8.toNat 0xE0 = 0xE0 from rfl) hlead
    simp [isSecond, UInt8.le_iff_toNat_le] at hb
    rw [low6]
    omega
  · have hb := hbounds (show UInt8.toNat 0xED = 0xED from rfl) hlead
    simp [isSecond, UInt8.le_iff_toNat_le] at hb
    rw [low6]
    omega
  · have hb := hbounds (show UInt8.toNat 0xF0 = 0xF0 from rfl) hlead
    simp [isSecond, UInt8.le_iff_toNat_le] at hb
    rw [low6]
    omega
  · have hb := hbounds (show UInt8.toNat 0xF4 = 0xF4 from rfl) hlead
    simp [isSecond, UInt8.le_iff_toNat_le] at hb
    rw [low6]
    omega

theorem isBeyond_twoByte (hlow : 0xC2 ≤ lead.toNat) (hhigh : lead.toNat ≤ 0xDF) (rest : Bytes) :
    (twoByte lead rest).IsBeyond := by
  unfold twoByte
  split
  · next b _ =>
    have hb := low6_lt b
    split
    · exact isBeyond_some (by omega) (.inl (by omega))
    · exact isBeyond_none _
  · exact isBeyond_none _

theorem isBeyond_threeByte (hlow : 0xE0 ≤ lead.toNat) (hhigh : lead.toNat ≤ 0xEF) (rest : Bytes) :
    (threeByte lead rest).IsBeyond := by
  unfold threeByte
  split
  · next b rest =>
    split
    · next hsecond =>
      obtain ⟨hfirst, hsurrogate, -, -⟩ := low6_of_isSecond hsecond
      have hb := low6_lt b
      split
      · next c _ =>
        have hc := low6_lt c
        split
        · exact isBeyond_some (by omega) (by unfold Nat.isValidChar; omega)
        · exact isBeyond_none _
      · exact isBeyond_none _
    · exact isBeyond_none _
  · exact isBeyond_none _

theorem isBeyond_fourByte (hlow : 0xF0 ≤ lead.toNat) (hhigh : lead.toNat ≤ 0xF4) (rest : Bytes) :
    (fourByte lead rest).IsBeyond := by
  unfold fourByte
  split
  · next b rest =>
    split
    · next hsecond =>
      obtain ⟨-, -, hfirst, hlast⟩ := low6_of_isSecond hsecond
      have hb := low6_lt b
      split
      · next c rest =>
        have hc := low6_lt c
        split
        · split
          · next d _ =>
            have hd := low6_lt d
            split
            · exact isBeyond_some (by omega) (.inr ⟨by omega, by omega⟩)
            · exact isBeyond_none _
          · exact isBeyond_none _
        · exact isBeyond_none _
      · exact isBeyond_none _
    · exact isBeyond_none _
  · exact isBeyond_none _

theorem isBeyond_piece (lead : UInt8) (rest : Bytes) (h : 0x80 ≤ lead.toNat) :
    (piece lead rest).IsBeyond := by
  unfold piece
  rw [if_neg (by simpa [UInt8.lt_iff_toNat_lt] using h)]
  simp only [UInt8.le_iff_toNat_le, Bool.and_eq_true, decide_eq_true_eq, UInt8.reduceToNat]
  split
  · next hrange => exact isBeyond_twoByte hrange.1 hrange.2 rest
  · split
    · next hrange => exact isBeyond_threeByte hrange.1 hrange.2 rest
    · split
      · next hrange => exact isBeyond_fourByte hrange.1 hrange.2 rest
      · exact isBeyond_none _

/-- What is an ASCII character when it is read has been one byte. -/
theorem piece_of_char (h : ((piece lead rest).char?.getD replacement).toNat < 0x80) :
    lead.toNat < 0x80 ∧ piece lead rest = ⟨some (Char.ofNat lead.toNat), 1⟩ := by
  have hlead : lead.toNat < 0x80 := by
    apply Nat.lt_of_not_le
    intro hle
    exact Nat.not_lt.2 (isBeyond_piece lead rest hle) h
  exact ⟨hlead, piece_one hlead⟩

theorem decodeLossy_cons (lead : UInt8) (rest : Bytes) :
    decodeLossy (lead :: rest) = (piece lead rest).char?.getD replacement ::
      decodeLossy (rest.drop ((piece lead rest).size - 1)) := by
  rw [decodeLossy, pieces_cons]
  rfl

/-- An ASCII character in what is read comes from its byte. -/
theorem exists_mem_of_mem_lossy {bytes : Bytes} {a : Char} (h : a ∈ (lossy bytes).toList)
    (ha : a.toNat < 0x80) : ∃ b ∈ bytes, Char.ofNat b.toNat = a := by
  rw [lossy, String.toList_ofList] at h
  induction hn : bytes.length using Nat.strongRecOn generalizing bytes with
  | ind n ih =>
      cases bytes with
      | nil => cases h
      | cons lead rest =>
          rw [decodeLossy_cons] at h
          rcases List.mem_cons.1 h with rfl | hrest
          · obtain ⟨-, hpiece⟩ := piece_of_char ha
            exact ⟨lead, List.mem_cons_self, by rw [hpiece]; rfl⟩
          · have hlt : (rest.drop ((piece lead rest).size - 1)).length < n := by
              rw [← hn, List.length_drop, List.length_cons]
              omega
            obtain ⟨b, hb, hchar⟩ := ih _ hlt hrest rfl
            exact ⟨b, List.mem_cons_of_mem _ (List.mem_of_mem_drop hb), hchar⟩

/-- Bytes that are read as ASCII are the bytes of what is read. -/
theorem encode_lossy {bytes : Bytes} (h : ∀ a ∈ (lossy bytes).toList, a.toNat < 0x80) :
    encode (lossy bytes) = bytes := by
  rw [encode]
  rw [lossy, String.toList_ofList] at h ⊢
  induction bytes with
  | nil => rfl
  | cons lead rest ih =>
      rw [decodeLossy_cons] at h ⊢
      obtain ⟨hfirst, hrest⟩ := List.forall_mem_cons.1 h
      obtain ⟨hlead, hpiece⟩ := piece_of_char hfirst
      have hvalid : lead.toNat.isValidChar := .inl (by omega)
      rw [hpiece] at hrest ⊢
      have hbyte : UInt8.ofNat lead.toNat = lead := UInt8.ofNat_toNat
      rw [List.flatMap_cons, Option.getD_some, utf8EncodeChar_ascii, toNat_charOfNat hvalid, hbyte]
      · exact congrArg (lead :: ·) (ih hrest)
      · rw [toNat_charOfNat hvalid]
        exact hlead

end Text
end DocClaims
