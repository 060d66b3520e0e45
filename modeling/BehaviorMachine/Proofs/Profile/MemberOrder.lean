import BehaviorMachine.Profile.Document
import BehaviorMachine.Proofs.Json.MemberOrder
import BehaviorMachine.Proofs.Json.Reading

/-!
# Profiles in reordered documents

A document without repeated names is read as the same profile, or is refused, in whatever order the
members of its objects stand (`Profile.ofJson?_reordered`).
-/
namespace BehaviorMachine

open Json

theorem Identifier.ignoresOrder {kind : IdKind} : IgnoresOrder (@Identifier.ofJson? kind) :=
  ignoresOrder_asString?.map _

theorem PortSide.ignoresOrder : IgnoresOrder PortSide.ofJson? := ignoresOrder_unitName?.bind _

theorem ValueType.ignoresOrder : IgnoresOrder ValueType.ofJson? := ignoresOrder_unitName?.map _

theorem InterruptType.ignoresOrder : IgnoresOrder InterruptType.ofJson? :=
  ignoresOrder_unitName?.map _

theorem InterruptAction.ignoresOrder : IgnoresOrder InterruptAction.ofJson? :=
  ignoresOrder_unitName?.map _

theorem ParamValue.ignoresOrder : IgnoresOrder ParamValue.ofJson? := by
  intro v w h
  cases h <;> rfl

theorem BehaviorParams.ignoresOrder : IgnoresOrder BehaviorParams.ofJson? := by
  intro v w h
  have hentries := ignoresOrder_entries ParamValue.ignoresOrder v w h
  rw [ofJson?,ofJson?,h.readable]
  exact congrArg (fun params => if w.readable then params else none) hentries

theorem Port.ignoresOrder : IgnoresOrder Port.ofJson? := by
  apply ignoresOrder_record
  intro fields others h
  rcases h with _ | ⟨hid,_ | ⟨hname,_ | ⟨hside,_ | ⟨htype,_ | ⟨_,_⟩⟩⟩⟩⟩
  -- Fewer or more fields than these make no record.
  any_goals rfl
  simp only [required_reordered hid Identifier.ignoresOrder,
    required_reordered hname ignoresOrder_asString?,required_reordered hside PortSide.ignoresOrder,
    required_reordered htype ValueType.ignoresOrder]

theorem ParamBinding.ignoresOrder : IgnoresOrder ParamBinding.ofJson? := by
  apply ignoresOrder_record
  intro fields others h
  rcases h with _ | ⟨hname,_ | ⟨hport,_ | ⟨_,_⟩⟩⟩
  any_goals rfl
  simp only [required_reordered hname ignoresOrder_asString?,
    required_reordered hport Identifier.ignoresOrder]

theorem InterruptHandler.ignoresOrder : IgnoresOrder InterruptHandler.ofJson? := by
  apply ignoresOrder_record
  intro fields others h
  rcases h with _ | ⟨htype,_ | ⟨haction,_ | ⟨htarget,_ | ⟨_,_⟩⟩⟩⟩
  any_goals rfl
  simp only [required_reordered htype InterruptType.ignoresOrder,
    required_reordered haction InterruptAction.ignoresOrder,
    optional_reordered htarget Identifier.ignoresOrder]

theorem StateSpec.ignoresOrder : IgnoresOrder StateSpec.ofJson? := by
  apply ignoresOrder_record
  intro fields others h
  rcases h with _ | ⟨hid,_ | ⟨hname,_ | ⟨hbehavior,_ | ⟨hparams,_ | ⟨hhandlers,
    _ | ⟨hports,_ | ⟨hbindings,_ | ⟨_,_⟩⟩⟩⟩⟩⟩⟩⟩
  any_goals rfl
  simp only [required_reordered hid Identifier.ignoresOrder,
    required_reordered hname ignoresOrder_asString?,
    required_reordered hbehavior Identifier.ignoresOrder,
    defaulted_reordered hparams BehaviorParams.ignoresOrder,
    defaulted_reordered hhandlers (ignoresOrder_asList? InterruptHandler.ignoresOrder),
    defaulted_reordered hports (ignoresOrder_asList? Port.ignoresOrder),
    defaulted_reordered hbindings (ignoresOrder_asList? ParamBinding.ignoresOrder)]

namespace Condition

theorem ignoresOrder_operator? : IgnoresOrder operator? := ignoresOrder_taggedUnitName?.map _

theorem ignoresOrder_comparison? : IgnoresOrder comparison? := by
  apply ignoresOrder_record
  intro fields others h
  rcases h with _ | ⟨hoperator,_ | ⟨hvalue,_ | ⟨_,_⟩⟩⟩
  any_goals rfl
  simp only [required_reordered hoperator ignoresOrder_operator?,
    required_reordered hvalue ignoresOrder_asBinary64?]

theorem ignoresOrder_namedComparison? (name : String) : IgnoresOrder (namedComparison? name) := by
  apply ignoresOrder_record
  intro fields others h
  rcases h with _ | ⟨htext,_ | ⟨hoperator,_ | ⟨hvalue,_ | ⟨_,_⟩⟩⟩⟩
  any_goals rfl
  simp only [required_reordered htext ignoresOrder_asString?,
    required_reordered hoperator ignoresOrder_operator?,
    required_reordered hvalue ignoresOrder_asBinary64?]

theorem ignoresOrder_duration? : IgnoresOrder fun v => (do
    let [duration] ← v.fields? ["durationMs"] | none
    (required duration asUInt64?).map timer) := by
  apply ignoresOrder_record
  intro fields others h
  rcases h with _ | ⟨hduration,_ | ⟨_,_⟩⟩
  any_goals rfl
  simp only [required_reordered hduration ignoresOrder_asUInt64?]

theorem ignoresOrder : IgnoresOrder ofJson? := by
  intro v w h
  apply bind_member (h.tagged? "type")
  intro tag rest rest' hrest
  have hunit := hrest.isUnit
  have hduration := ignoresOrder_duration? rest rest' hrest
  have hcomparison := ignoresOrder_comparison? rest rest' hrest
  have hitems := ignoresOrder_namedComparison? "itemPattern" rest rest' hrest
  have hskill := ignoresOrder_namedComparison? "skillName" rest rest' hrest
  simp only [hunit,hcomparison,hitems,hskill]
  split
  -- The timer reads its one field in place.
  case h_3 => exact hduration
  all_goals rfl

end Condition

theorem Transition.ignoresOrder : IgnoresOrder Transition.ofJson? := by
  apply ignoresOrder_record
  intro fields others h
  rcases h with _ | ⟨hid,_ | ⟨hsource,_ | ⟨htarget,_ | ⟨hcondition,_ | ⟨hpriority,
    _ | ⟨hlabel,_ | ⟨_,_⟩⟩⟩⟩⟩⟩⟩
  any_goals rfl
  simp only [required_reordered hid Identifier.ignoresOrder,
    required_reordered hsource Identifier.ignoresOrder,
    required_reordered htarget Identifier.ignoresOrder,
    required_reordered hcondition Condition.ignoresOrder,
    defaulted_reordered hpriority ignoresOrder_asInt64?,
    optional_reordered hlabel ignoresOrder_asString?]

theorem DataConnection.ignoresOrder : IgnoresOrder DataConnection.ofJson? := by
  apply ignoresOrder_record
  intro fields others h
  rcases h with _ | ⟨hid,_ | ⟨hsource,_ | ⟨hfrom,_ | ⟨htarget,_ | ⟨hto,_ | ⟨_,_⟩⟩⟩⟩⟩⟩
  any_goals rfl
  simp only [required_reordered hid Identifier.ignoresOrder,
    required_reordered hsource Identifier.ignoresOrder,
    required_reordered hfrom Identifier.ignoresOrder,
    required_reordered htarget Identifier.ignoresOrder,
    required_reordered hto Identifier.ignoresOrder]

theorem Profile.ignoresOrder : IgnoresOrder Profile.ofJson? := by
  apply ignoresOrder_record
  intro fields others h
  rcases h with _ | ⟨hid,_ | ⟨hname,_ | ⟨hdescription,_ | ⟨hinitial,_ | ⟨hstates,
    _ | ⟨htransitions,_ | ⟨hconnections,_ | ⟨_,_⟩⟩⟩⟩⟩⟩⟩⟩
  any_goals rfl
  simp only [required_reordered hid Identifier.ignoresOrder,
    required_reordered hname ignoresOrder_asString?,
    optional_reordered hdescription ignoresOrder_asString?,
    optional_reordered hinitial Identifier.ignoresOrder,
    required_reordered hstates (ignoresOrder_asList? StateSpec.ignoresOrder),
    defaulted_reordered htransitions (ignoresOrder_asList? Transition.ignoresOrder),
    defaulted_reordered hconnections (ignoresOrder_asList? DataConnection.ignoresOrder)]

/-- Documents that differ in the order of members only are both read or both refused, and the
profiles are the same, with one canonical text and one digest. The same holds of files. -/
theorem Profile.ofJson?_reordered {document other : Json} (h : document.Reordered other) :
    ((ofJson? document).isSome ↔ (ofJson? other).isSome) ∧
      (∀ p q, ofJson? document = some p → ofJson? other = some q →
        p = q ∧ p.canonicalText = q.canonicalText ∧ p.hash = q.hash) ∧
      ∀ content content' : ByteArray, readBytes? content = some document →
        readBytes? content' = some other →
        (readBytes? content).bind ofJson? = (readBytes? content').bind ofJson? := by
  have hread := ignoresOrder document other h
  refine ⟨by rw [hread],?_,?_⟩
  · intro p q hp hq
    rw [hread,hq] at hp
    cases hp
    exact ⟨rfl,rfl,rfl⟩
  · intro content content' hd ho
    rw [hd,ho]
    exact hread

/-- The profile of a miner who goes on when there is ore enough. -/
def minerDocument : Json :=
  .object [("id",.string "miner"),("name",.string "Miner"),
    ("states",.array [.object [("id",.string "dig"),("name",.string "Dig"),
      ("behaviorName",.string "dig"),
      ("behaviorParams",.object [("depth",.number (.natural 12)),("until",.null),
        ("silent",.bool true)])]]),
    ("transitions",.array [.object [("id",.string "enough"),("fromStateId",.string "dig"),
      ("toStateId",.string "dig"),
      ("condition",.object [("type",.string "item_count"),("itemPattern",.string "ore"),
        ("operator",.string ">="),("value",.number (.natural 64))])]])]

/-- The same with the members of each object the other way round. -/
def minerReversed : Json :=
  .object [
    ("transitions",.array [.object [
      ("condition",.object [("value",.number (.natural 64)),("operator",.string ">="),
        ("itemPattern",.string "ore"),("type",.string "item_count")]),
      ("toStateId",.string "dig"),("fromStateId",.string "dig"),("id",.string "enough")]]),
    ("states",.array [.object [
      ("behaviorParams",.object [("silent",.bool true),("until",.null),
        ("depth",.number (.natural 12))]),
      ("behaviorName",.string "dig"),("name",.string "Dig"),("id",.string "dig")]]),
    ("name",.string "Miner"),("id",.string "miner")]

theorem miner_reordered : minerDocument.Reordered minerReversed := by
  refine .object (by decide) (.cons (.string _) (.cons (.string _)
    (.cons (.array (.cons ?state .nil)) (.cons (.array (.cons ?transition .nil)) .nil))))
    (List.reverse_perm _).symm
  case state =>
    refine .object (by decide) (.cons (.string _) (.cons (.string _) (.cons (.string _)
      (.cons ?params .nil)))) (List.reverse_perm _).symm
    exact .object (by decide) (.cons (.number _) (.cons .null (.cons (.bool _) .nil)))
      (List.reverse_perm _).symm
  case transition =>
    refine .object (by decide) (.cons (.string _) (.cons (.string _) (.cons (.string _)
      (.cons ?condition .nil)))) (List.reverse_perm _).symm
    exact .object (by decide) (.cons (.string _) (.cons (.string _) (.cons (.string _)
      (.cons (.number _) .nil)))) (List.reverse_perm _).symm

theorem Profile.ofJson?_reordered_miner : minerDocument.Reordered minerReversed ∧
    (ofJson? minerDocument).isSome ∧ (ofJson? minerReversed).isSome ∧
    (readBytes? (String.ofList minerDocument.write).toUTF8).bind ofJson? =
      (readBytes? (String.ofList minerReversed.write).toUTF8).bind ofJson? := by
  have hd : (ofJson? minerDocument).isSome := by decide +kernel
  have hcontent := readBytes?_write (v := minerDocument) (by decide)
  have hcontent' := readBytes?_write (v := minerReversed) (by decide)
  obtain ⟨hread,_,htext⟩ := ofJson?_reordered miner_reordered
  exact ⟨miner_reordered,hd,hread.mp hd,htext _ _ hcontent hcontent'⟩

end BehaviorMachine
