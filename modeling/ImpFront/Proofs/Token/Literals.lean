import ImpFront.Proofs.Token.Joined
import ImpFront.Proofs.Token.Scans
/-!
# ImpFront.Proofs.Token.Literals

**A written literal is one lexeme.** Whatever text a literal is written for, it is read back as
that text, and it ends at its own closing quote: a text behind it is scanned as it is alone, only
further on. Three notations meet here, the one for writing, the one for reading and the one for
where a literal ends.
-/

namespace ImpFront

open Lexeme Position

/-- Behind a text that begins a source, the place is in closed form. -/
theorem Position.after_start (text : List Char) : start.after text = ofPrefix text :=
  after_ofPrefix [] text

/-- The places of lexemes change neither the kinds nor the texts of their tokens. -/
theorem Token.map_kind_text_layout_eq (p q : Position) (ls : List Lexeme) :
    (layout p ls).map (fun t => (t.kind, t.text))
      = (layout q ls).map (fun t => (t.kind, t.text)) := by
  rw [map_kind_text_layout, map_kind_text_layout]

namespace Text

/-- A written literal stays on its line. -/
theorem newline_not_mem_encode (value : String) : '\n' ∉ (encode value).toList := by
  have hbody := newline_not_mem_body (isBody_encodeBody value.toList)
  rw [toList_encode]
  simpa using hbody

/-- A written literal is a body between quotes, and the body stands for the text. -/
theorem exists_body_encode (value : String) :
    ∃ body, encode value = "\"" ++ body ++ "\"" ∧ decode body = value := by
  refine ⟨String.ofList (encodeBody value.toList), ?_, ?_⟩
  · refine String.toList_inj.1 ?_
    simp
  · refine String.toList_inj.1 ?_
    rw [toList_decode, String.toList_ofList, decodeBody_encodeBody]

end Text

namespace Token

/-- **Writing and reading literals are inverse, and a written literal is one lexeme.** The literal
for a text is a body between quotes that stands for the text, on one line. In front of any source
that is scanned, it becomes the first token: a string with that text, from the start to the end of
the literal. The tokens behind it are those of the source alone, in other places. -/
theorem scan_encode_append (value : String) :
    ∃ body, Text.encode value = "\"" ++ body ++ "\"" ∧ Text.decode body = value
      ∧ '\n' ∉ (Text.encode value).toList
      ∧ ∀ (rest : String) (ts : List Token), scan rest = .ok ts →
        (Text.encode value ++ rest).utf8ByteSize < Cause.maxSourceBytes →
        ∃ t others, scan (Text.encode value ++ rest) = .ok (t :: others)
          ∧ t.kind = .string ∧ t.text = value
          ∧ t.span = ⟨.start, .ofPrefix (Text.encode value).toList⟩
          ∧ others.map (fun t => (t.kind, t.text)) = ts.map (fun t => (t.kind, t.text)) := by
  obtain ⟨body, hliteral, hvalue⟩ := Text.exists_body_encode value
  refine ⟨body, hliteral, hvalue, Text.newline_not_mem_encode value, fun rest ts hrest hsize => ?_⟩
  obtain ⟨-, ls, htiles, rfl⟩ := scan_eq_ok_iff.1 hrest
  have htext : (Text.encode value).toList
      = (Lexeme.string (Text.encodeBody value.toList)).text := by
    rw [Text.toList_encode]
    rfl
  -- The literal is the first lexeme, and the others are those of the source behind it.
  have hfirst := Scans.first_encode value rest.toList
  have hbehind : ((Text.encode value).toList ++ rest.toList).drop
      (Lexeme.string (Text.encodeBody value.toList)).text.length = rest.toList := by
    rw [← htext, List.drop_left]
  have hall : Tiles (Text.encode value ++ rest).toList
      (.string (Text.encodeBody value.toList) :: ls) := by
    rw [String.toList_append]
    exact .cons (by simp) hfirst (by rwa [hbehind])
  refine ⟨_, _, scan_eq_ok_iff.2 ⟨Nat.le_of_lt hsize, _, hall, rfl⟩, rfl, ?_, ?_,
    map_kind_text_layout_eq _ _ ls⟩
  · show String.ofList (Text.decodeBody (Text.encodeBody value.toList)) = value
    rw [Text.decodeBody_encodeBody, String.ofList_toList]
  · show Span.mk .start (Position.start.after _) = _
    rw [← htext, after_start]

/-- A hexadecimal digit, a digit, a quote and a slash that follow do not join the escapes. -/
theorem scan_encode_append_at_digits :
    scan "0\"1\"//" = .ok [⟨.number, "0", ⟨⟨0, 1, 1⟩, ⟨1, 1, 2⟩⟩⟩,
        ⟨.string, "1", ⟨⟨1, 1, 2⟩, ⟨4, 1, 5⟩⟩⟩, .endAt ⟨6, 1, 7⟩]
      ∧ (Text.encode "\x01f\x000\\" ++ "0\"1\"//").utf8ByteSize < Cause.maxSourceBytes
      ∧ ∃ t others, scan (Text.encode "\x01f\x000\\" ++ "0\"1\"//") = .ok (t :: others)
        ∧ t.kind = .string ∧ t.text = "\x01f\x000\\"
        ∧ t.span = ⟨.start, .ofPrefix (Text.encode "\x01f\x000\\").toList⟩
        ∧ others.map (fun t => (t.kind, t.text))
          = [(.number, "0"), (.string, "1"), (.eof, "EOF")] := by
  have hrest : scan "0\"1\"//" = .ok [⟨.number, "0", ⟨⟨0, 1, 1⟩, ⟨1, 1, 2⟩⟩⟩,
      ⟨.string, "1", ⟨⟨1, 1, 2⟩, ⟨4, 1, 5⟩⟩⟩, .endAt ⟨6, 1, 7⟩] := by
    decide +kernel
  have hsize : (Text.encode "\x01f\x000\\" ++ "0\"1\"//").utf8ByteSize
      < Cause.maxSourceBytes := by
    decide +kernel
  obtain ⟨-, -, -, -, hscan⟩ := scan_encode_append "\x01f\x000\\"
  obtain ⟨t, others, hall, hkind, htext, hspan, hothers⟩ := hscan _ _ hrest hsize
  exact ⟨hrest, hsize, t, others, hall, hkind, htext, hspan, hothers⟩

end Token

end ImpFront
