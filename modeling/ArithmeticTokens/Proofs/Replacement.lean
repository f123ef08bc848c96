import ArithmeticTokens.Proofs.Acceptance
import Mathlib.Data.List.Forall2

/-!
# A part of a text

Some tokens in a row cut a text in three: what is in front of the first of them, the slice from its
start to the end of the last, and what is behind. Neither cut splits a token or joins two, because
each token was read in view of what follows it and nothing in front of a text matters to it
(`Layout.exists_range`). So the slice read alone has these tokens, and another text in its place
leaves the tokens around it as they are, as long as blanks keep it apart from them. All that
changes is where the tokens start and stop (`Token.Moved`).
-/

namespace ArithmeticTokens

open Text

/-- The second token is the first one, `d` bytes further on. -/
structure Token.Moved (d : Int) (t u : Token) : Prop where
  kind : u.kind = t.kind
  value : u.value = t.value
  start : (u.span.start : Int) = t.span.start + d
  stop : (u.span.stop : Int) = t.span.stop + d

theorem Token.moved_ofChars (kind : Kind) (v : List Char) (n m : Nat) :
    Moved ((m : Int) - n) (ofChars kind n v) (ofChars kind m v) where
  kind := rfl
  value := rfl
  start := by
    simp only [ofChars]
    omega
  stop := by
    simp only [ofChars]
    omega

namespace Layout

variable {ahead cs : List Char} {n : Nat} {ts us ms vs : List Token} {t : Token}

/-- A text can start anywhere: its tokens move along. -/
theorem exists_moved (h : Layout ahead n cs ts) (m : Nat) :
    ∃ ws, Layout ahead m cs ws ∧ List.Forall₂ (Token.Moved ((m : Int) - n)) ts ws := by
  induction h generalizing m with
  | done n => exact ⟨[], .done m, .nil⟩
  | @blank n c cs ts hc tail ih =>
      obtain ⟨ws, hlayout, hmoved⟩ := ih (m + 1)
      have hdistance : ((m + 1 : Nat) : Int) - (n + 1 : Nat) = m - n := by omega
      rw [hdistance] at hmoved
      exact ⟨ws, .blank hc hlayout, hmoved⟩
  | @token n kind v cs ts hv hseam tail ih =>
      obtain ⟨ws, hlayout, hmoved⟩ := ih (m + v.length)
      have hdistance : ((m + v.length : Nat) : Int) - (n + v.length : Nat) = m - n := by omega
      rw [hdistance] at hmoved
      exact ⟨_, .token hv hseam hlayout, .cons (Token.moved_ofChars kind v n m) hmoved⟩

/-- A text is cut where one of its tokens starts. -/
theorem exists_cut_before (h : Layout ahead n cs (us ++ t :: vs)) :
    ∃ front rest, cs = front ++ rest ∧ t.span.start = n + front.length ∧
      Layout (rest ++ ahead) n front us ∧ Layout ahead (n + front.length) rest (t :: vs) := by
  obtain ⟨front, kind, v, rest, rfl, rfl, hv, hseam, hfront, hrest⟩ := h.split
  refine ⟨front, v ++ rest, rfl, rfl, ?_, .token hv hseam hrest⟩
  rwa [List.append_assoc]

/-- A text is cut where one of its tokens stops. -/
theorem exists_cut_behind (h : Layout ahead n cs (us ++ t :: vs)) :
    ∃ front rest, cs = front ++ rest ∧ t.span.stop = n + front.length ∧
      Layout (rest ++ ahead) n front (us ++ [t]) ∧ Layout ahead (n + front.length) rest vs := by
  obtain ⟨front, kind, v, rest, rfl, rfl, hv, hseam, hfront, hrest⟩ := h.split
  have htoken : Layout (rest ++ ahead) (n + front.length) (v ++ [])
      [Token.ofChars kind (n + front.length) v] := .token hv hseam (.done _)
  rw [List.append_nil] at htoken
  have hlength : n + (front ++ v).length = n + front.length + v.length := by
    rw [List.length_append, Nat.add_assoc]
  refine ⟨front ++ v, rest, by rw [List.append_assoc], hlength.symm, hfront.append htoken, ?_⟩
  rwa [hlength]

/-- Some tokens in a row are the tokens of the slice from the start of the first of them to the end
of the last, and the tokens around them are those of the text around the slice. -/
theorem exists_range (h : Layout ahead n cs (us ++ ms ++ vs)) (hne : ms ≠ []) :
    ∃ front slice back, cs = front ++ (slice ++ back) ∧
      (ms.head hne).span.start = n + front.length ∧
      (ms.getLast hne).span.stop = n + front.length + slice.length ∧
      Layout (slice ++ back ++ ahead) n front us ∧
      Layout (back ++ ahead) (n + front.length) slice ms ∧
      Layout ahead (n + front.length + slice.length) back vs := by
  have hfirst : us ++ ms ++ vs = us ++ ms.head hne :: (ms.tail ++ vs) := by
    rw [List.append_assoc, ← List.cons_append, List.cons_head_tail]
  rw [hfirst] at h
  obtain ⟨front, rest, rfl, hstart, hfront, hrest⟩ := h.exists_cut_before
  have hlast : ms.head hne :: (ms.tail ++ vs) = ms.dropLast ++ ms.getLast hne :: vs := by
    rw [← List.cons_append, List.cons_head_tail, List.append_cons, List.dropLast_concat_getLast]
  rw [hlast] at hrest
  obtain ⟨slice, back, rfl, hstop, hslice, hback⟩ := hrest.exists_cut_behind
  rw [List.dropLast_concat_getLast] at hslice
  exact ⟨front, slice, back, rfl, hstart, hstop, hfront, hslice, hback⟩

/-- A text that starts and ends with a blank can be put between two others. -/
theorem append_between {front text back : List Char} (hfront : Layout ahead n front us)
    (htext : Layout [] (n + front.length) text ms)
    (hback : Layout [] (n + front.length + text.length) back vs)
    (hstart : headIs (· ∈ blanks) text = true) (hend : lastIs (· ∈ blanks) text = true) :
    Layout [] n (front ++ (text ++ back)) (us ++ (ms ++ vs)) := by
  have hbefore : seam front (text ++ back ++ []) = false := by
    obtain ⟨c, rest, rfl, hc⟩ := headIs_eq_true_iff.mp hstart
    simp [seam, isDigit_of_mem_blanks (of_decide_eq_true hc)]
  have hbehind : seam text (back ++ []) = false := by
    obtain rfl | ⟨init, c, rfl⟩ := List.eq_nil_or_concat text
    · exact seam_nil_left _
    · rw [List.concat_eq_append] at hend ⊢
      rw [lastIs_concat] at hend
      exact seam_blank (of_decide_eq_true hend)
  exact (hfront.congr_ahead hbefore).append ((htext.congr_ahead hbehind).append hback)

/-- A text in front of others is read alone in the same way, and its tokens start from zero. -/
theorem exists_lex_ofList (h : Layout ahead n cs ts) :
    ∃ rs, lex (String.ofList cs) = .ok rs ∧ List.Forall₂ (Token.Moved (-(n : Int))) ts rs := by
  obtain ⟨rs, hlayout, hmoved⟩ := h.exists_moved 0
  have hdistance : ((0 : Nat) : Int) - n = -n := by omega
  rw [hdistance] at hmoved
  refine ⟨rs, ?_, hmoved⟩
  rw [lex_eq_ok_iff, String.toList_ofList]
  exact hlayout.congr_ahead (seam_nil_right cs)

/-- An accepted text with blanks at both ends can stand between two parts of another text, whatever
was there. The tokens behind move to where the new text ends. -/
theorem exists_lex_between {front back : List Char} {text : String} {ns : List Token}
    (hfront : Layout ahead 0 front us) (hback : Layout [] n back vs) (htext : lex text = .ok ns)
    (hstart : headIs (· ∈ blanks) text.toList = true)
    (hend : lastIs (· ∈ blanks) text.toList = true) :
    ∃ ws, lex (String.ofList front ++ text ++ String.ofList back) =
        .ok (us ++ ns.map (Token.shift front.length) ++ ws) ∧
      List.Forall₂ (Token.Moved ((front.length + text.toList.length : Nat) - n)) vs ws := by
  obtain ⟨ws, hlayout, hmoved⟩ := hback.exists_moved (front.length + text.toList.length)
  refine ⟨ws, ?_, hmoved⟩
  have hmiddle : Layout [] (0 + front.length) text.toList (ns.map (Token.shift front.length)) := by
    rw [Nat.zero_add]
    exact (lex_eq_ok_iff.mp htext).shift front.length
  have hbehind : Layout [] (0 + front.length + text.toList.length) back ws := by
    rwa [Nat.zero_add]
  have hwhole := hfront.append_between hmiddle hbehind hstart hend
  rw [lex_eq_ok_iff]
  simpa using hwhole

end Layout

/-- Some tokens in a row are what the slice between the start of the first and the end of the last
is read as, but for their places, which are counted from the start of the slice. Any other text that
is accepted and has blanks at both ends can stand there instead: the tokens in front stay, then
those of the new text follow, and those behind move by as much as the length changes. -/
theorem lex_of_range {source : String} {us ms vs : List Token}
    (h : lex source = .ok (us ++ ms ++ vs)) (hne : ms ≠ []) :
    ∃ front slice back : String, source = front ++ slice ++ back ∧
      front.utf8ByteSize = (ms.head hne).span.start ∧
      (front ++ slice).utf8ByteSize = (ms.getLast hne).span.stop ∧
      (∃ rs, lex slice = .ok rs ∧
        List.Forall₂ (Token.Moved (-((ms.head hne).span.start : Int))) ms rs) ∧
      ∀ (text : String) (ns : List Token), lex text = .ok ns →
        headIs (· ∈ blanks) text.toList = true → lastIs (· ∈ blanks) text.toList = true →
          ∃ ws, lex (front ++ text ++ back) =
              .ok (us ++ ns.map (Token.shift (ms.head hne).span.start) ++ ws) ∧
            List.Forall₂ (Token.Moved ((text.utf8ByteSize : Int) - slice.utf8ByteSize)) vs ws := by
  obtain ⟨front, slice, back, hsource, hstart, hstop, hfront, hslice, hback⟩ :=
    (lex_eq_ok_iff.mp h).exists_range hne
  have hletters := exists_lex_eq_ok_iff.mp ⟨_, h⟩
  have hfrontSize : (String.ofList front).utf8ByteSize = front.length :=
    utf8ByteSize_ofList fun c hc => hletters c (by simp [hsource, hc])
  have hsliceSize : (String.ofList slice).utf8ByteSize = slice.length :=
    utf8ByteSize_ofList fun c hc => hletters c (by simp [hsource, hc])
  rw [Nat.zero_add] at hstart hstop hslice hback
  refine ⟨.ofList front, .ofList slice, .ofList back, ?_, ?_, ?_, ?_, ?_⟩
  · rw [← String.toList_inj, hsource]
    simp
  · rw [hfrontSize, hstart]
  · rw [String.utf8ByteSize_append, hfrontSize, hsliceSize, hstop]
  · rw [hstart]
    exact hslice.exists_lex_ofList
  · intro text ns hns hhead hlast
    have hdistance : ((front.length + text.toList.length : Nat) : Int) -
        (front.length + slice.length : Nat) = text.toList.length - slice.length := by
      omega
    rw [hstart, utf8ByteSize_eq_length hns, hsliceSize, ← hdistance]
    exact hfront.exists_lex_between hback hns hhead hlast

/-- An operator and the number behind it are taken out of the middle, and a number between blanks is
put there. -/
theorem lex_of_range_signs :
    lex "5--2 3" = .ok ([⟨.number, "5", ⟨0, 1⟩⟩] ++
        [⟨.operator, "-", ⟨1, 2⟩⟩, ⟨.number, "-2", ⟨2, 4⟩⟩] ++ [⟨.number, "3", ⟨5, 6⟩⟩]) ∧
      [(⟨.operator, "-", ⟨1, 2⟩⟩ : Token), ⟨.number, "-2", ⟨2, 4⟩⟩] ≠ [] ∧
      lex "\t7 " = .ok [⟨.number, "7", ⟨1, 2⟩⟩] ∧
      headIs (· ∈ blanks) "\t7 ".toList = true ∧ lastIs (· ∈ blanks) "\t7 ".toList = true ∧
      ∃ front slice back : String, "5--2 3" = front ++ slice ++ back ∧
        front.utf8ByteSize = 1 ∧ (front ++ slice).utf8ByteSize = 4 ∧
        (∃ rs, lex slice = .ok rs ∧ List.Forall₂ (Token.Moved (-1))
          [⟨.operator, "-", ⟨1, 2⟩⟩, ⟨.number, "-2", ⟨2, 4⟩⟩] rs) ∧
        ∃ ws, lex (front ++ "\t7 " ++ back) =
            .ok ([⟨.number, "5", ⟨0, 1⟩⟩] ++ [⟨.number, "7", ⟨2, 3⟩⟩] ++ ws) ∧
          List.Forall₂ (Token.Moved (("\t7 ".utf8ByteSize : Int) - slice.utf8ByteSize))
            [⟨.number, "3", ⟨5, 6⟩⟩] ws := by
  have hsource : lex "5--2 3" = .ok ([⟨.number, "5", ⟨0, 1⟩⟩] ++
      [⟨.operator, "-", ⟨1, 2⟩⟩, ⟨.number, "-2", ⟨2, 4⟩⟩] ++ [⟨.number, "3", ⟨5, 6⟩⟩]) := by
    decide +kernel
  have htext : lex "\t7 " = .ok [⟨.number, "7", ⟨1, 2⟩⟩] := by decide +kernel
  have hhead : headIs (· ∈ blanks) "\t7 ".toList = true := by decide +kernel
  have hlast : lastIs (· ∈ blanks) "\t7 ".toList = true := by decide +kernel
  have hne := List.cons_ne_nil (⟨.operator, "-", ⟨1, 2⟩⟩ : Token) [⟨.number, "-2", ⟨2, 4⟩⟩]
  obtain ⟨front, slice, back, hparts, hstart, hstop, hslice, hreplaced⟩ := lex_of_range hsource hne
  exact ⟨hsource, hne, htext, hhead, hlast, front, slice, back, hparts, hstart, hstop, hslice,
    hreplaced _ _ htext hhead hlast⟩

end ArithmeticTokens
