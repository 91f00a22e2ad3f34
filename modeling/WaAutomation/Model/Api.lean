/-
**The workspace-scoped endpoints.**

One constructor of `Endpoint` for each route of the contacts, sessions, messages, broadcasts,
automations, webhooks, API key and analytics controllers, with its path parameters and its body, and
the service function it calls. `WorkspaceId` reads the workspace of a request.
-/

import WaAutomation.Model.Analytics
import WaAutomation.Model.Webhooks

set_option linter.unusedSectionVars false

namespace WaAutomation

open Library

/-- The parts of a request the decorator `WorkspaceId` reads: the header, the query parameter, and
the property the API key guard sets. -/
structure HttpRequest where
  header : Option String
  query : Option String
  workspaceId : Option String
  deriving DecidableEq, Repr

/-- The workspace of a request: the first operand of `||` that is not empty, or the last one. -/
def WorkspaceId (request : HttpRequest) : Option Uuid :=
  ((orNull request.header).or (orNull request.query)).or request.workspaceId

inductive Endpoint where
  -- contacts
  | listGroups
  | createGroup (dto : CreateContactGroupDto)
  | updateGroup (id : Uuid) (dto : UpdateContactGroupDto)
  | removeGroup (id : Uuid)
  | findContacts (query : QueryContactsDto)
  | createContact (dto : CreateContactDto)
  | importContacts (rows : List CsvContactRow)
  | findContact (id : Uuid)
  | updateContact (id : Uuid) (dto : UpdateContactDto)
  | removeContact (id : Uuid)
  | blacklistContact (id : Uuid)
  -- sessions
  | findSessions
  | createSession (dto : CreateSessionDto)
  | findSession (id : Uuid)
  | updateSession (id : Uuid) (dto : UpdateSessionDto)
  | sessionQr (id : Uuid)
  | startSession (id : Uuid)
  | stopSession (id : Uuid)
  | sessionStatus (id : Uuid)
  | removeSession (id : Uuid)
  -- messages
  | sendMessage (dto : SendMessageDto)
  | sendBulk (dto : SendBulkDto)
  | findLogs (query : QueryLogsDto)
  | findLog (id : Uuid)
  -- broadcasts
  | findBroadcasts
  | createBroadcast (dto : CreateBroadcastDto)
  | findBroadcast (id : Uuid)
  | updateBroadcast (id : Uuid) (dto : UpdateBroadcastDto)
  | removeBroadcast (id : Uuid)
  | sendBroadcast (id : Uuid)
  | cancelBroadcast (id : Uuid)
  | broadcastStatus (id : Uuid)
  | broadcastReport (id : Uuid)
  -- automations
  | findAutomations
  | createAutomation (dto : CreateAutomationDto)
  | findAutomation (id : Uuid)
  | updateAutomation (id : Uuid) (dto : UpdateAutomationDto)
  | removeAutomation (id : Uuid)
  | enableAutomation (id : Uuid)
  | disableAutomation (id : Uuid)
  | testAutomation (id : Uuid) (body : Option Record)
  -- webhooks
  | findWebhooks
  | createWebhook (dto : CreateWebhookDto)
  | findWebhook (id : Uuid)
  | updateWebhook (id : Uuid) (dto : UpdateWebhookDto)
  | removeWebhook (id : Uuid)
  | testWebhook (id : Uuid)
  | webhookLogs (id : Uuid)
  -- API keys
  | findApiKeys
  | createApiKey (dto : CreateApiKeyDto)
  | removeApiKey (id : Uuid)
  -- analytics
  | overview
  | messages (sent until_ : Option String)
  | automationStats
  | sessionStats
  | broadcastStats

namespace Endpoint

/-- What an endpoint answers. -/
@[reducible] def Answer : Endpoint → Type
  | .listGroups => List ContactGroup
  | .createGroup _ | .updateGroup _ _ => ContactGroup
  | .findContacts _ => PaginatedResult Contact
  | .createContact _ | .findContact _ | .updateContact _ _ | .blacklistContact _ => Contact
  | .importContacts _ => ImportReply
  | .findSessions => List Session
  | .createSession _ | .findSession _ | .updateSession _ _ => Session
  | .sessionQr _ => Option String
  | .startSession _ | .stopSession _ => Option Session
  | .sessionStatus _ => SessionStatusReply
  | .sendMessage _ => QueuedReply
  | .sendBulk _ => BulkReply
  | .findLogs _ => PaginatedResult MessageLog
  | .findLog _ => MessageLog
  | .findBroadcasts => List Broadcast
  | .createBroadcast _ | .findBroadcast _ | .updateBroadcast _ _ => Broadcast
  | .sendBroadcast _ => SendReply
  | .broadcastStatus _ => BroadcastStatusReply
  | .broadcastReport _ => BroadcastReport
  | .findAutomations => List LoadedAutomation
  | .createAutomation _ | .findAutomation _ | .updateAutomation _ _ | .enableAutomation _
  | .disableAutomation _ => LoadedAutomation
  | .testAutomation _ _ => QueuedReply
  | .findWebhooks => List Webhook
  | .createWebhook _ | .findWebhook _ | .updateWebhook _ _ => Webhook
  | .testWebhook _ => QueuedAck
  | .webhookLogs _ => List WebhookDelivery
  | .findApiKeys => List ApiKey
  | .createApiKey _ => CreatedApiKey
  | .overview => Overview
  | .messages _ _ => List MessagesRow
  | .automationStats => List AutomationStat
  | .sessionStats => List SessionStat
  | .broadcastStats => BroadcastStats
  | .removeGroup _ | .removeContact _ | .removeSession _ | .removeBroadcast _ | .cancelBroadcast _
  | .removeAutomation _ | .removeWebhook _ | .removeApiKey _ => String

/-- The service function behind an endpoint, for a workspace id and the user of the request. -/
def program (h : Helpers) (ws : Option Uuid) (uid : Uuid) :
    (endpoint : Endpoint) → Svc endpoint.Answer
  | .listGroups => ContactsService.listGroups ws uid
  | .createGroup dto => ContactsService.createGroup ws uid dto
  | .updateGroup id dto => ContactsService.updateGroup id ws uid dto
  | .removeGroup id => ContactsService.removeGroup id ws uid
  | .findContacts query => ContactsService.findAll h ws uid query
  | .createContact dto => ContactsService.create ws uid dto
  | .importContacts rows => ContactsService.importMany ws uid rows
  | .findContact id => ContactsService.findOne id ws uid
  | .updateContact id dto => ContactsService.update id ws uid dto
  | .removeContact id => ContactsService.remove id ws uid
  | .blacklistContact id => ContactsService.blacklist id ws uid
  | .findSessions => SessionsService.findAll ws uid
  | .createSession dto => SessionsService.create ws uid dto
  | .findSession id => SessionsService.findOne id ws uid
  | .updateSession id dto => SessionsService.update id ws uid dto
  | .sessionQr id => SessionsService.getQr h id ws uid
  | .startSession id => SessionsService.start h id ws uid
  | .stopSession id => SessionsService.stop h id ws uid
  | .sessionStatus id => SessionsService.getStatus h id ws uid
  | .removeSession id => SessionsService.remove h id ws uid
  | .sendMessage dto => MessagesService.send ws uid dto
  | .sendBulk dto => MessagesService.sendBulk ws uid dto
  | .findLogs query => MessagesService.findLogs h ws uid query
  | .findLog id => MessagesService.findLog id ws uid
  | .findBroadcasts => BroadcastsService.findAll ws uid
  | .createBroadcast dto => BroadcastsService.create h ws uid dto
  | .findBroadcast id => BroadcastsService.findOne id ws uid
  | .updateBroadcast id dto => BroadcastsService.update id ws uid dto
  | .removeBroadcast id => BroadcastsService.remove id ws uid
  | .sendBroadcast id => BroadcastsService.send id ws uid
  | .cancelBroadcast id => BroadcastsService.cancel id ws uid
  | .broadcastStatus id => BroadcastsService.status id ws uid
  | .broadcastReport id => BroadcastsService.report id ws uid
  | .findAutomations => AutomationsService.findAll ws uid
  | .createAutomation dto => AutomationsService.create ws uid dto
  | .findAutomation id => AutomationsService.findOne id ws uid
  | .updateAutomation id dto => AutomationsService.update id ws uid dto
  | .removeAutomation id => AutomationsService.remove id ws uid
  | .enableAutomation id => AutomationsService.setActive id ws uid true
  | .disableAutomation id => AutomationsService.setActive id ws uid false
  | .testAutomation id body => AutomationsService.test id ws uid body
  | .findWebhooks => WebhooksService.findAll ws uid
  | .createWebhook dto => WebhooksService.create ws uid dto
  | .findWebhook id => WebhooksService.findOne id ws uid
  | .updateWebhook id dto => WebhooksService.update id ws uid dto
  | .removeWebhook id => WebhooksService.remove id ws uid
  | .testWebhook id => WebhooksService.test h id ws uid
  | .webhookLogs id => WebhooksService.logs id ws uid
  | .findApiKeys => ApiKeysService.findAll ws uid
  | .createApiKey dto => ApiKeysService.create h ws uid dto
  | .removeApiKey id => ApiKeysService.remove id ws uid
  | .overview => AnalyticsService.overview h ws uid
  | .messages sent until_ => AnalyticsService.messages_ h ws uid sent until_
  | .automationStats => AnalyticsService.automationStats ws uid
  | .sessionStats => AnalyticsService.sessionStats ws uid
  | .broadcastStats => AnalyticsService.broadcastStats ws uid

end Endpoint

end WaAutomation
