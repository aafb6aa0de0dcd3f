import ScriptAtlas.Proofs.Outline.Filter
import ScriptAtlas.Proofs.Symbol.Completion
import ScriptAtlas.Proofs.Text.FinalSigma

/-!
Searching for a text that is written as it stands. Names and labels are searched
in lower case, each put into lower case as a whole, and this changes a capital
sigma according to the word in which it stands. So a name is missed by a
beginning of it that ends in a capital sigma inside a word, and by no other
beginning; and a keyword finds every label of which it is part exactly if its
capital sigmas are settled within the keyword (`verbatim_found_iff`).
-/
namespace ScriptAtlas

/-- A name is completed from a beginning of it, unless this ends in a capital sigma
    and the name continues the word. -/
theorem SymbolIndex.complete_start_iff {x : SymbolIndex} {file : Path} {s : Symbol} (declared : s ∈ x.symbolsOf file)
    {p r : Text} (name : s.name = p ++ r) :
    (∃ m ∈ x.complete p, m.symbol.kind = s.kind ∧ m.symbol.name = s.name) ↔
      ¬ (Text.EndsInSigma p ∧ Text.reachesLetter r = true) := by
  rw [exists_mem_complete_iff, ← Text.lowercase_prefix_iff]
  constructor
  · rintro ⟨-, t, -, -, -, begins⟩
    rwa [name] at begins
  · intro begins
    exact ⟨file, s, declared, rfl, rfl, name ▸ begins⟩

namespace Outline

variable {keyword part : Text}

/-- The items at any level whose label has a part as it is written, from the top
    downwards, without those below them. -/
def hits (part : Text) (items : List Item) : List Item := (listed items).filter (part <:+: ·.label)

/-- A keyword whose capital sigmas are settled finds every label of which it is part. -/
theorem hits_filter_of_settled (some : Text.allBlank keyword = false) (settled : Text.Settled (Text.trim keyword))
    (items : List Item) : hits (Text.trim keyword) (filter items keyword) = hits (Text.trim keyword) items := by
  rw [filter_eq_keepAll some]
  have hit : ∀ label, decide (Text.trim keyword <:+: label) = true →
      Text.hasPart (keywordOf keyword) (Text.lowercase label) = true := fun label part =>
    Text.hasPart_iff_infix.mpr (settled.lowercase_infix (of_decide_eq_true part))
  exact filter_listed_keepAll hit items

/-- A keyword finds every label of which it is part exactly if its capital sigmas are settled. -/
theorem hits_filter_iff (some : Text.allBlank keyword = false) :
    (∀ items, hits (Text.trim keyword) (filter items keyword) = hits (Text.trim keyword) items) ↔
      Text.Settled (Text.trim keyword) := by
  refine ⟨fun kept => Text.settled_iff.mpr fun label part => ?_, fun settled => hits_filter_of_settled some settled⟩
  -- A single item with the label would go if its lower case form did not have the keyword.
  have found := kept [⟨label, .statement, 1, []⟩]
  rw [filter_eq_keepAll some] at found
  by_contra missing
  have lost : ¬ Text.hasPart (keywordOf keyword) (Text.lowercase label) = true := fun has =>
    missing (Text.hasPart_iff_infix.mp has)
  simp [keepAll, Item.keep, lost, hits, listed, preorderAll, Item.preorder, Item.bare, part] at found

end Outline

/-- Which texts are found as they are written. A symbol is reported for a beginning
    of its name unless this ends in a capital sigma inside a word; and filtering by
    a keyword keeps all items whose label has it, in every outline, exactly if its
    capital sigmas are settled within the keyword. -/
theorem verbatim_found_iff (x : SymbolIndex) (keyword : Text) :
    (∀ file, ∀ s ∈ x.symbolsOf file, ∀ p r, s.name = p ++ r →
      ((∃ m ∈ x.complete p, m.symbol.kind = s.kind ∧ m.symbol.name = s.name) ↔
        ¬ (Text.EndsInSigma p ∧ Text.reachesLetter r = true))) ∧
    (Text.allBlank keyword = false →
      ((∀ items, Outline.hits (Text.trim keyword) (Outline.filter items keyword) =
          Outline.hits (Text.trim keyword) items) ↔
        Text.Settled (Text.trim keyword))) :=
  ⟨fun _ _ declared _ _ name => SymbolIndex.complete_start_iff declared name, fun some => Outline.hits_filter_iff some⟩

/-- A name that ends in a capital sigma is found by all of it, and a label by a part
    that begins with one. -/
theorem verbatim_found_iff_whole_word :
    (∃ m ∈ (SymbolIndex.build {} [(⟨"a.sk".toList⟩, "command ΟΣ:".toList)]).complete "ΟΣ".toList,
      m.symbol.kind = .command ∧ m.symbol.name = "ΟΣ".toList) ∧
    Outline.hits "ΣΑ".toList (Outline.filter [⟨"ΟΣΑ".toList, .event, 1, []⟩] " ΣΑ ".toList) =
      Outline.hits "ΣΑ".toList [⟨"ΟΣΑ".toList, .event, 1, []⟩] := by
  obtain ⟨completed, filtered⟩ :=
    verbatim_found_iff (SymbolIndex.build {} [(⟨"a.sk".toList⟩, "command ΟΣ:".toList)]) " ΣΑ ".toList
  have declared : .command "ΟΣ".toList 1 ∈
      (SymbolIndex.build {} [(⟨"a.sk".toList⟩, "command ΟΣ:".toList)]).symbolsOf ⟨"a.sk".toList⟩ := by
    decide +kernel
  constructor
  · refine (completed _ _ declared "ΟΣ".toList [] rfl).mpr ?_
    rintro ⟨-, continues⟩
    cases continues
  · exact (filtered (by decide)).mpr (by decide +kernel) _

/-- A capital sigma inside a word: the name is not completed from what stands up to
    it, and a keyword that is only this letter misses a label that ends in it. -/
theorem verbatim_missed_in_word :
    let x := SymbolIndex.build {} [(⟨"a.sk".toList⟩, "command ΟΣΑ:".toList)]
    (.command "ΟΣΑ".toList 1 ∈ x.symbolsOf ⟨"a.sk".toList⟩ ∧ "ΟΣ".toList <+: "ΟΣΑ".toList ∧
      ¬ ∃ m ∈ x.complete "ΟΣ".toList, m.symbol.kind = .command ∧ m.symbol.name = "ΟΣΑ".toList) ∧
    "Σ".toList <:+: "ΟΣ".toList ∧ Outline.filter [⟨"ΟΣ".toList, .event, 1, []⟩] "Σ".toList = [] := by
  intro x
  refine ⟨⟨by decide +kernel, by decide, ?_⟩, by decide, ?_⟩
  · rw [SymbolIndex.exists_mem_complete_iff]
    rintro ⟨-, -, -, -, -, begins⟩
    exact absurd begins (by decide +kernel)
  · rw [Outline.filter_eq_keepAll (by decide)]
    have lost : Text.hasPart (Outline.keywordOf "Σ".toList) (Text.lowercase "ΟΣ".toList) = false := by decide +kernel
    simp only [Outline.keepAll, Outline.Item.keep, lost, List.isEmpty_nil, Bool.not_true, Bool.or_self,
      Bool.false_eq_true, if_false]

end ScriptAtlas
