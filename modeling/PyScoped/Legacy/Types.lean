import PyScoped.Foundation.DateTime

/-! Identifiers, lifecycle states and action types shared by the version 1 layers. -/

namespace PyScoped.Legacy

/-- A generated identifier is the hexadecimal text of a random UUID. -/
@[ext]
structure ScopedId where
  text : String
  hex : ∀ c ∈ text.toList, c.isDigit = true ∨ c ∈ ['a', 'b', 'c', 'd', 'e', 'f']
  length : text.length = 32
  deriving DecidableEq

instance tenDigits : NeZero 10 := ⟨by decide⟩

/-- The identifier of one repeated digit. -/
def ScopedId.repeated (n : Fin 10) : ScopedId where
  text := String.ofList (List.replicate 32 (Nat.digitChar n))
  hex := by
    intro c member
    rw [String.toList_ofList] at member
    rw [List.eq_of_mem_replicate member, Nat.isDigit_digitChar]
    exact .inl (decide_eq_true n.isLt)
  length := by rw [String.length_ofList, List.length_replicate]

inductive Lifecycle where
  | draft | active | deprecated | archived
  deriving DecidableEq, Repr

inductive ActionType where
  | create | read | update | delete | share | revoke | register | unregister | ruleChange | rollback
  | scopeCreate | scopeModify | scopeDissolve | membershipChange | ownershipTransfer | lifecycleChange
  | accessCheck | projection | envSpawn | envSuspend | envResume | envComplete | envDiscard | envPromote
  | envSnapshot | stageTransition | flowPush | promotion | deploy | deployRollback | gateCheck | secretCreate
  | secretRead | secretRotate | secretRevoke | secretRefGrant | secretRefResolve | integrationConnect
  | integrationDisconnect | pluginInstall | pluginActivate | pluginSuspend | pluginUninstall
  | pluginPermissionGrant | pluginPermissionRevoke | hookRegister | hookDeactivate | hookExecute
  | connectorPropose | connectorSubmit | connectorApprove | connectorReject | connectorSuspend | connectorRevoke
  | connectorSync | connectorPolicyAdd | marketplacePublish | marketplaceInstall | marketplaceVersionUpdate
  | marketplaceDeprecate | marketplaceRemove | marketplaceVisibilityChange | marketplaceReview | contractCreate
  | contractUpdate | contractValidate | blobCreate | blobRead | blobDelete | rateLimitCheck | quotaCheck
  | featureFlagCheck | redactionApply | configSet | configDelete | templateCreate | templateUpdate
  | templateInstantiate | exportPackage | importPackage | eventEmit | eventSubscribe | eventUnsubscribe
  | webhookCreate | webhookDelete | webhookDeliver | notificationCreate | notificationRead | notificationDismiss
  | notificationRuleCreate | scheduleCreate | scheduleArchive | jobEnqueue | jobStart | jobComplete | jobFail
  | jobCancel
  deriving DecidableEq, Repr

namespace ActionType

def value : ActionType → String
  | .create => "create"
  | .read => "read"
  | .update => "update"
  | .delete => "delete"
  | .share => "share"
  | .revoke => "revoke"
  | .register => "register"
  | .unregister => "unregister"
  | .ruleChange => "rule_change"
  | .rollback => "rollback"
  | .scopeCreate => "scope_create"
  | .scopeModify => "scope_modify"
  | .scopeDissolve => "scope_dissolve"
  | .membershipChange => "membership_change"
  | .ownershipTransfer => "ownership_transfer"
  | .lifecycleChange => "lifecycle_change"
  | .accessCheck => "access_check"
  | .projection => "projection"
  | .envSpawn => "env_spawn"
  | .envSuspend => "env_suspend"
  | .envResume => "env_resume"
  | .envComplete => "env_complete"
  | .envDiscard => "env_discard"
  | .envPromote => "env_promote"
  | .envSnapshot => "env_snapshot"
  | .stageTransition => "stage_transition"
  | .flowPush => "flow_push"
  | .promotion => "promotion"
  | .deploy => "deploy"
  | .deployRollback => "deploy_rollback"
  | .gateCheck => "gate_check"
  | .secretCreate => "secret_create"
  | .secretRead => "secret_read"
  | .secretRotate => "secret_rotate"
  | .secretRevoke => "secret_revoke"
  | .secretRefGrant => "secret_ref_grant"
  | .secretRefResolve => "secret_ref_resolve"
  | .integrationConnect => "integration_connect"
  | .integrationDisconnect => "integration_disconnect"
  | .pluginInstall => "plugin_install"
  | .pluginActivate => "plugin_activate"
  | .pluginSuspend => "plugin_suspend"
  | .pluginUninstall => "plugin_uninstall"
  | .pluginPermissionGrant => "plugin_permission_grant"
  | .pluginPermissionRevoke => "plugin_permission_revoke"
  | .hookRegister => "hook_register"
  | .hookDeactivate => "hook_deactivate"
  | .hookExecute => "hook_execute"
  | .connectorPropose => "connector_propose"
  | .connectorSubmit => "connector_submit"
  | .connectorApprove => "connector_approve"
  | .connectorReject => "connector_reject"
  | .connectorSuspend => "connector_suspend"
  | .connectorRevoke => "connector_revoke"
  | .connectorSync => "connector_sync"
  | .connectorPolicyAdd => "connector_policy_add"
  | .marketplacePublish => "marketplace_publish"
  | .marketplaceInstall => "marketplace_install"
  | .marketplaceVersionUpdate => "marketplace_version_update"
  | .marketplaceDeprecate => "marketplace_deprecate"
  | .marketplaceRemove => "marketplace_remove"
  | .marketplaceVisibilityChange => "marketplace_visibility_change"
  | .marketplaceReview => "marketplace_review"
  | .contractCreate => "contract_create"
  | .contractUpdate => "contract_update"
  | .contractValidate => "contract_validate"
  | .blobCreate => "blob_create"
  | .blobRead => "blob_read"
  | .blobDelete => "blob_delete"
  | .rateLimitCheck => "rate_limit_check"
  | .quotaCheck => "quota_check"
  | .featureFlagCheck => "feature_flag_check"
  | .redactionApply => "redaction_apply"
  | .configSet => "config_set"
  | .configDelete => "config_delete"
  | .templateCreate => "template_create"
  | .templateUpdate => "template_update"
  | .templateInstantiate => "template_instantiate"
  | .exportPackage => "export"
  | .importPackage => "import"
  | .eventEmit => "event_emit"
  | .eventSubscribe => "event_subscribe"
  | .eventUnsubscribe => "event_unsubscribe"
  | .webhookCreate => "webhook_create"
  | .webhookDelete => "webhook_delete"
  | .webhookDeliver => "webhook_deliver"
  | .notificationCreate => "notification_create"
  | .notificationRead => "notification_read"
  | .notificationDismiss => "notification_dismiss"
  | .notificationRuleCreate => "notification_rule_create"
  | .scheduleCreate => "schedule_create"
  | .scheduleArchive => "schedule_archive"
  | .jobEnqueue => "job_enqueue"
  | .jobStart => "job_start"
  | .jobComplete => "job_complete"
  | .jobFail => "job_fail"
  | .jobCancel => "job_cancel"

/-- Stored action names are lower-case words joined by underscores. -/
theorem value_chars (action : ActionType) :
    action.value.toList.all (fun c => c.isLower || c == '_') = true := by
  cases action <;> decide +kernel

end ActionType
end PyScoped.Legacy
