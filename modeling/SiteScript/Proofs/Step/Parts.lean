import SiteScript.Proofs.Json.Parts
import SiteScript.Proofs.Step.Stored

/-!
# Parts of attributes

The members of the fields and of the attributes of a step set parts that do not touch one another.
-/

namespace SiteScript

theorem FormField.record_parts : record.Parts record.written where
  required := by simp [record, Member.text]
  sets := by simp [record, Member.text, Record.written, Except.map_eq_ok_iff]

theorem ScrapeField.record_parts : record.Parts record.written where
  required := by simp [record, Member.text]
  sets := by simp [record, Member.text, Record.written, Except.map_eq_ok_iff]

theorem Click.record_parts : record.Parts record.written where
  required := by simp [record, Member.text]
  sets := by simp [record, Member.text, Record.written, Except.map_eq_ok_iff]

theorem Select.record_parts : record.Parts record.written where
  required := by simp [record, Member.text]
  sets := by simp [record, Member.text, Record.written, Except.map_eq_ok_iff]

theorem Form.record_parts : record.Parts record.written where
  required := by simp [record, Member.list]
  sets := by
    simp [record, Member.list, Record.written, Except.map_eq_ok_iff, -Bool.exists_bool,
      -Bool.forall_bool]

theorem FormSelector.record_parts : record.Parts record.written where
  required := by simp [record, Member.text, Member.list]
  sets := by
    simp [record, Member.text, Member.list, Record.written, Except.map_eq_ok_iff, -Bool.exists_bool,
      -Bool.forall_bool]

theorem Scrape.record_parts : record.Parts record.written where
  required := by simp [record, Member.list]
  sets := by simp [record, Member.list, Record.written, Except.map_eq_ok_iff]

theorem Selector.record_parts : record.Parts record.written where
  required := by simp [record, Member.text, Member.list]
  sets := by simp [record, Member.text, Member.list, Record.written, Except.map_eq_ok_iff]

end SiteScript
