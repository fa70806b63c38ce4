import Genaryx.Base.Text

/-!
# The command table

Every dispatchable command with the role it needs and whether it carries the ceremony. A
name that has no row needs the highest role and the ceremony.
-/

namespace Genaryx.Ceremony

inductive Role
  | viewer
  | approver
  | admin
  deriving DecidableEq

namespace Role

/-- The order of privilege. -/
def rank : Role → Nat
  | viewer => 0
  | approver => 1
  | admin => 2

def asStr : Role → Text
  | viewer => "viewer"
  | approver => "approver"
  | admin => "admin"

end Role

/-- One row of the command table. -/
structure Gate where
  name : Text
  role : Role
  ceremony : Bool
  deriving DecidableEq

def gate (name : Text) (role : Role) (ceremony : Bool) : Gate := ⟨name, role, ceremony⟩

def commands : List Gate :=
  [ gate "admission_check" .viewer false,
    gate "admission_status" .viewer false,
    gate "agent_events" .viewer false,
    gate "agent_profile" .viewer false,
    gate "agent_stops" .viewer false,
    gate "agent_graph" .viewer false,
    gate "agent_slice" .viewer false,
    gate "bus_quarantine" .viewer false,
    gate "bus_status" .viewer false,
    gate "case_file" .viewer false,
    gate "copilot_ask" .viewer false,
    gate "copilot_explain" .viewer false,
    gate "copilot_explain_case" .viewer false,
    gate "copilot_status" .viewer false,
    gate "credentials_gateway_retained_runs" .viewer false,
    gate "credentials_keys" .viewer false,
    gate "credentials_posture" .viewer false,
    gate "credentials_status" .viewer false,
    gate "crypto_scan_cbom" .viewer false,
    gate "crypto_scan_evidence" .viewer false,
    gate "crypto_scan_ncsc" .viewer false,
    gate "crypto_status" .viewer false,
    gate "crypto_verify_evidence" .viewer false,
    gate "drills_status" .viewer false,
    gate "evidence_status" .viewer false,
    gate "identity_list_alerts" .viewer false,
    gate "identity_list_identities" .viewer false,
    gate "identity_list_remediations" .viewer false,
    gate "identity_status" .viewer false,
    gate "lifecycle_blocks" .viewer false,
    gate "memory_recall" .viewer false,
    gate "memory_stats" .viewer false,
    gate "memory_status" .viewer false,
    gate "memory_why" .viewer false,
    gate "money_incidents" .viewer false,
    gate "money_list_retained" .viewer false,
    gate "money_overview" .viewer false,
    gate "money_owners" .viewer false,
    gate "money_runs" .viewer false,
    gate "money_spend_window" .viewer false,
    gate "money_savings" .viewer false,
    gate "money_units" .viewer false,
    gate "money_gateways" .viewer false,
    gate "egress_recent" .viewer false,
    gate "money_status" .viewer false,
    gate "onboard_status" .viewer false,
    gate "policy_list_approvals" .viewer false,
    gate "policy_list_policies" .viewer false,
    gate "policy_status" .viewer false,
    gate "policy_proof" .viewer false,
    gate "budget_proof" .viewer false,
    gate "case_seal" .approver false,
    gate "case_pack" .viewer false,
    gate "remedy_check" .viewer false,
    gate "quality_list_baselines" .viewer false,
    gate "quality_list_run_summaries" .viewer false,
    gate "quality_run_scores" .viewer false,
    gate "quality_status" .viewer false,
    gate "policy_enforcement_status" .viewer false,
    gate "recent_events" .viewer false,
    gate "remote_cloud_list" .viewer false,
    gate "remote_operator_wg_peers" .viewer false,
    gate "remote_ssh_check_reachable" .viewer false,
    gate "remote_status" .viewer false,
    gate "routines_history" .viewer false,
    gate "routines_status" .viewer false,
    gate "run_events" .viewer false,
    gate "stats_counts" .viewer false,
    gate "policy_decide_approval" .approver true,
    gate "money_kill_run" .admin true,
    gate "money_set_budget" .admin true,
    gate "money_ack_incident" .admin false,
    gate "money_close_retained" .admin true,
    gate "money_set_unit_budget" .admin true,
    gate "agent_block" .admin false,
    gate "unit_block" .admin false,
    gate "user_block" .admin false,
    gate "identity_rescan" .admin false,
    gate "drills_run" .admin false,
    gate "evidence_build" .admin false,
    gate "memory_forget" .admin false,
    gate "onboard_generate" .admin false,
    gate "onboard_write_passport" .admin false,
    gate "admission_baseline" .admin false,
    gate "copilot_log_proposal_approved" .admin false,
    gate "remote_set_environment" .admin false,
    gate "remote_wg_connect" .admin false,
    gate "remote_wg_disconnect" .admin false,
    gate "remote_ssh_read_file" .admin false,
    gate "remote_ssh_tail_start" .admin false,
    gate "remote_ssh_tail_stop" .admin false,
    gate "remote_operator_wg_config" .admin true,
    gate "remote_operator_wg_revoke" .admin true,
    gate "remote_hetzner_list" .admin false,
    gate "delegation_revoke" .admin true,
    gate "agent_stop" .admin true,
    gate "agent_lift" .admin true]

def gateOf (command : Text) : Option Gate := commands.find? fun g => g.name = command

def requiredRole (command : Text) : Role := ((gateOf command).map Gate.role).getD .admin

def requiresCeremony (command : Text) : Bool := ((gateOf command).map Gate.ceremony).getD true

def ceremonyCommands : List Text := (commands.filter Gate.ceremony).map Gate.name

/-- A name outside the table is treated as the most sensitive command. -/
theorem unknown_command {command : Text} (h : ∀ g ∈ commands, g.name ≠ command) :
    requiredRole command = .admin ∧ requiresCeremony command = true := by
  have hnone : gateOf command = none := by
    rw [gateOf, List.find?_eq_none]
    intro g hg
    simpa using h g hg
  simp [requiredRole, requiresCeremony, hnone]

end Genaryx.Ceremony
